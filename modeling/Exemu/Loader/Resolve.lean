import Exemu.Loader.Image
import Mathlib.Data.List.DropRight

/-! # Resolving a symbol

An export may be a forwarder, a text that names a symbol of another module.
-/
namespace Exemu.Loader

open Path (Text)

abbrev ModuleSet := Text → Option (U64 × List Export)

def Export.Is (e : Export) : ImportSymbol → Prop
  | .named name => e.name = some name
  | .ordinal ord => e.ordinal = ord

instance (e : Export) (symbol : ImportSymbol) : Decidable (e.Is symbol) :=
  match symbol with
  | .named name => inferInstanceAs (Decidable (e.name = some name))
  | .ordinal ord => inferInstanceAs (Decidable (e.ordinal = ord))

def findExport (exports : List Export) (symbol : ImportSymbol) : Option Export := exports.find? fun e => e.Is symbol

def normalizeDll (dll : Text) : Text :=
  let n := dll.map Char.toLower
  if n.contains '.' then n else n ++ ".dll".toList

def decimal (digits : Text) : Nat := digits.foldl (fun acc c => acc * 10 + (c.toNat - '0'.toNat)) 0

/-- `parse::<u16>` -/
def parseU16 (s : Text) : Option U16 :=
  let digits := if s.head? = some '+' then s.tail else s
  if digits ≠ [] && digits.all Char.isDigit && decimal digits < 2 ^ 16 then some (BitVec.ofNat 16 (decimal digits)) else none

/-- Behind the last dot, `#` and a number is an ordinal. -/
def parseForwarder (s : Text) : Option (Text × ImportSymbol) := do
  let dllPart := (s.rdropWhile (· ≠ '.')).dropLast
  let symPart := s.rtakeWhile (· ≠ '.')
  if !s.contains '.' || dllPart = [] || symPart = [] then none
  else if symPart.head? = some '#' then return (normalizeDll dllPart, .ordinal (← parseU16 symPart.tail))
  else return (normalizeDll dllPart, .named symPart)

def MAX_FORWARDER_HOPS : Nat := 16

def Export.address (e : Export) (base : U64) : U64 := base + e.rva.setWidth 64

/-- The rounds of the loop of `resolve`. Without a result it falls back. -/
def resolveHops (modules : ModuleSet) : Nat → Text → ImportSymbol → Option U64
  | 0, _, _ => none
  | n + 1, curDll, curSymbol => do
    let (base, exports) ← modules curDll
    let e ← findExport exports curSymbol
    match e.forwarder with
    | none => return e.address base
    | some target =>
      let (nextDll, nextSymbol) ← parseForwarder target
      resolveHops modules n nextDll nextSymbol

/-- `resolve`, where no address is `Fallback`. -/
def resolve (modules : ModuleSet) (dll : Text) (symbol : ImportSymbol) : Option U64 :=
  resolveHops modules MAX_FORWARDER_HOPS (normalizeDll dll) symbol

/-- The symbol leads, over so many forwarders, to an export of the guest's own code at this address. -/
inductive Leads (modules : ModuleSet) : Nat → Text → ImportSymbol → U64 → Prop where
  | here {dll symbol base exports e} (hModule : modules dll = some (base, exports)) (hFound : findExport exports symbol = some e)
      (hOwn : e.forwarder = none) : Leads modules 0 dll symbol (e.address base)
  | hop {dll symbol base exports e target nextDll nextSymbol n addr} (hModule : modules dll = some (base, exports))
      (hFound : findExport exports symbol = some e) (hTarget : e.forwarder = some target)
      (hParse : parseForwarder target = some (nextDll, nextSymbol)) (hNext : Leads modules n nextDll nextSymbol addr) :
      Leads modules (n + 1) dll symbol addr

variable {modules : ModuleSet} {dll : Text} {symbol : ImportSymbol} {n k : Nat} {addr : U64}

theorem Leads.resolveHops (h : Leads modules k dll symbol addr) (hk : k < n) : resolveHops modules n dll symbol = some addr := by
  induction h generalizing n with
  | here hModule hFound hOwn =>
    obtain ⟨m, rfl⟩ := Nat.exists_eq_succ_of_ne_zero (Nat.ne_of_gt hk)
    simp [Loader.resolveHops, hModule, hFound, hOwn]
  | hop hModule hFound hTarget hParse _ ih =>
    obtain ⟨m, rfl⟩ := Nat.exists_eq_succ_of_ne_zero (Nat.ne_of_gt (Nat.zero_lt_of_lt hk))
    simp only [Loader.resolveHops, hModule, hFound, hTarget, hParse, Option.bind_eq_bind, Option.bind_some]
    exact ih (Nat.lt_of_succ_lt_succ hk)

theorem leads_of_resolveHops (h : resolveHops modules n dll symbol = some addr) : ∃ k < n, Leads modules k dll symbol addr := by
  induction n generalizing dll symbol with
  | zero => cases h
  | succ n ih =>
    obtain ⟨m, hModule, h⟩ := Option.bind_eq_some_iff.mp h
    obtain ⟨base, exports⟩ := m
    obtain ⟨e, hFound, h⟩ := Option.bind_eq_some_iff.mp h
    cases hForwarder : e.forwarder with
    | none =>
      rw [hForwarder] at h
      cases h
      exact ⟨0, Nat.succ_pos n, .here hModule hFound hForwarder⟩
    | some target =>
      rw [hForwarder] at h
      obtain ⟨next, hParse, h⟩ := Option.bind_eq_some_iff.mp h
      obtain ⟨nextDll, nextSymbol⟩ := next
      obtain ⟨k, hk, hNext⟩ := ih h
      exact ⟨k + 1, Nat.succ_lt_succ hk, .hop hModule hFound hForwarder hParse hNext⟩

theorem resolve_iff : resolve modules dll symbol = some addr ↔ ∃ k < MAX_FORWARDER_HOPS, Leads modules k (normalizeDll dll) symbol addr := by
  constructor
  · exact leads_of_resolveHops
  · rintro ⟨k, hk, hLeads⟩
    exact hLeads.resolveHops hk

example : parseForwarder "ntdll.#42".toList = some ("ntdll.dll".toList, .ordinal 42) := by decide

end Exemu.Loader
