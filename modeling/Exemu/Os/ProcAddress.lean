import Exemu.Loader.Resolve
import Exemu.Os.Module

/-! # The address of a symbol

`GetProcAddress` looks a symbol up in the exports of one module.
-/
namespace Exemu.Os

open Path (Text)
open Loader (Export ImportSymbol ModuleSet findExport normalizeDll Leads MAX_FORWARDER_HOPS)

/-! ## The call -/

def readByte (mem : VirtualMemory) (addr : U64) : Result U8 := do return (← mem.read addr 1).headD 0

def readAstrBytes (mem : VirtualMemory) : Nat → U64 → Result (List U8)
  | 0, addr => do
    let _ ← readByte mem addr
    return []
  | n + 1, addr => do
    let b ← readByte mem addr
    if b = 0 then return [] else return b :: (← readAstrBytes mem n (addr + 1))

def readAstr (mem : VirtualMemory) (addr : U64) : Result Text :=
  if addr = 0 then .ok [] else do return Loader.fromUtf8Lossy (← readAstrBytes mem (2 ^ 20 + 1) addr)

/-- The part of the configuration that the data exports have their values from. -/
structure CmdlinePtrs where
  cmdlinePtrA : U64
  cmdlinePtrW : U64

def dataExportValue (cfg : CmdlinePtrs) (name : Text) : Option U64 :=
  if name = "_acmdln".toList then some cfg.cmdlinePtrA
  else if name = "_wcmdln".toList then some cfg.cmdlinePtrW
  else none

def isOrdinal (namePtr : U64) : Bool := namePtr < 0x10000

namespace Load

def readName (namePtr : U64) : Load Text := .step fun s => (readAstr s.mem namePtr).map fun name => (name, s)

end Load

open Load

namespace DllEnv

variable (env : DllEnv)

/-- `get_proc_address` of a module that has exports. -/
def exportAddress (hmodule : U64) (exports : List Export) (namePtr : U64) : Load U64 := do
  let found ←
    if isOrdinal namePtr then pure (exports.find? fun e => e.ordinal.setWidth 64 = namePtr)
    else do
      let want ← readName namePtr
      pure (exports.find? fun e => e.name = some want)
  return (found.map fun e => e.address hmodule).getD 0

/-- `get_proc_address` of an emulated module. -/
def systemAddress (cfg : CmdlinePtrs) (dll : Text) (namePtr : U64) : Load U64 := do
  if isOrdinal namePtr then env.resolveImport dll (.ordinal (namePtr.setWidth 16))
  else do
    let name ← readName namePtr
    if name = [] then return 0
    else do
      let thunk ← env.resolveImport dll (.named name)
      match dataExportValue cfg name with
      | some v => env.writePtr thunk v
      | none => pure ()
      return thunk

/-- `get_proc_address` of a handle that has these exports, or none. -/
def addressIn (cfg : CmdlinePtrs) (hmodule namePtr : U64) (d : DllLoader) : Option (List Export) → Load U64
  | some exports => exportAddress hmodule exports namePtr
  | none =>
    match d.system.lookup hmodule with
    | some dll => env.systemAddress cfg dll namePtr
    | none => return 0

def getProcAddress (cfg : CmdlinePtrs) (hmodule namePtr : U64) : Load U64 := do
  let d := (← Fallible.get).dll
  env.addressIn cfg hmodule namePtr d (d.exports.lookup hmodule)

end DllEnv

/-! ## What it asks for -/

def symbolAt (mem : VirtualMemory) (namePtr : U64) : Result ImportSymbol :=
  if isOrdinal namePtr then .ok (.ordinal (namePtr.setWidth 16)) else (readAstr mem namePtr).map .named

structure Loaded (d : DllLoader) (name : Text) (base : U64) (exports : List Export) : Prop where
  named : d.byName.lookup name = some base
  listed : d.exports.lookup base = some exports

namespace DllEnv

variable {env : DllEnv} {cfg : CmdlinePtrs} {s : DllState} {dll name : Text} {base namePtr : U64} {exports : List Export}
  {symbol : ImportSymbol}

theorem loaded_iff : Loaded s.dll name base exports ↔ moduleExports s.dll name = some (base, exports) := by
  constructor
  · rintro ⟨hNamed, hListed⟩
    rw [moduleExports, hNamed, Option.bind_eq_bind, Option.bind_some, hListed]
    rfl
  · intro h
    obtain ⟨b, hNamed, h⟩ := Option.bind_eq_some_iff.mp h
    obtain ⟨es, hListed, h⟩ := Option.bind_eq_some_iff.mp h
    cases h
    exact ⟨hNamed, hListed⟩

theorem find_ordinal (h : isOrdinal namePtr = true) :
    (exports.find? fun e => e.ordinal.setWidth 64 = namePtr) = findExport exports (.ordinal (namePtr.setWidth 16)) := by
  have hLow : namePtr < 0x10000 := of_decide_eq_true h
  have hSame : ∀ e : Export, decide (e.ordinal.setWidth 64 = namePtr) = decide (e.Is (.ordinal (namePtr.setWidth 16))) := by
    intro e
    refine decide_eq_decide.mpr ⟨fun hEq => ?_, fun hEq => ?_⟩
    · show e.ordinal = namePtr.setWidth 16
      bv_omega
    · have hOrdinal : e.ordinal = namePtr.setWidth 16 := hEq
      bv_omega
  rw [funext hSame]
  rfl

theorem exportAddress_run (hSymbol : symbolAt s.mem namePtr = .ok symbol) :
    exportAddress base exports namePtr s = some (.ok (((findExport exports symbol).map fun e => e.address base).getD 0), s) := by
  unfold symbolAt at hSymbol
  cases hOrdinal : isOrdinal namePtr with
  | true =>
    rw [hOrdinal] at hSymbol
    cases hSymbol
    rw [exportAddress, hOrdinal, if_pos rfl, find_ordinal hOrdinal]
    rfl
  | false =>
    rw [hOrdinal, if_neg Bool.false_ne_true] at hSymbol
    rw [exportAddress, hOrdinal, if_neg Bool.false_ne_true]
    cases hName : readAstr s.mem namePtr with
    | error e =>
      rw [hName] at hSymbol
      cases hSymbol
    | ok want =>
      rw [hName] at hSymbol
      cases hSymbol
      have hRead : readName namePtr s = some (.ok want, s) := by
        rw [readName, Fallible.step, hName]
        rfl
      show (readName namePtr s).bind _ = _
      rw [hRead]
      rfl

theorem getProcAddress_run (hLoaded : Loaded s.dll name base exports) (hSymbol : symbolAt s.mem namePtr = .ok symbol) :
    env.getProcAddress cfg base namePtr s = some (.ok (((findExport exports symbol).map fun e => e.address base).getD 0), s) := by
  show env.addressIn cfg base namePtr s.dll (s.dll.exports.lookup base) s = _
  rw [hLoaded.listed]
  exact exportAddress_run hSymbol

/-! ## What the binding of imports writes -/

def hostOf (env : DllEnv) (dll : Text) : Text := (env.images.apiSetHost dll).getD dll

def thunkOf (env : DllEnv) (s : DllState) (host : Text) (symbol : ImportSymbol) : U64 :=
  (s.interned.lookup (env.hostOf host, internedName symbol)).getD s.nextThunk

def bound (env : DllEnv) (s : DllState) (dll : Text) (symbol : ImportSymbol) : U64 :=
  (env.images.resolveExport (moduleExports s.dll) (env.hostOf dll) symbol).getD (env.thunkOf s (env.hostOf dll) symbol)

theorem resolveImport_run (host : Text) :
    ∃ s', env.resolveImport host symbol s = some (.ok (env.thunkOf s host symbol), s') := by
  have hGet : ∀ f : DllState → Load U64, (Fallible.get >>= f) s = f s s := fun _ => rfl
  unfold resolveImport thunkOf hostOf
  rw [hGet]
  cases s.interned.lookup ((env.images.apiSetHost host).getD host, internedName symbol) with
  | some addr => exact ⟨s, rfl⟩
  | none => exact ⟨_, rfl⟩

theorem resolveImportAddr_run : ∃ s', env.resolveImportAddr dll symbol s = some (.ok (env.bound s dll symbol), s') := by
  have hGet : ∀ f : DllState → Load U64, (Fallible.get >>= f) s = f s s := fun _ => rfl
  unfold resolveImportAddr bound hostOf
  rw [hGet]
  cases env.images.resolveExport (moduleExports s.dll) ((env.images.apiSetHost dll).getD dll) symbol with
  | some addr => exact ⟨s, rfl⟩
  | none => exact resolveImport_run _

/-! ## The two of them -/

/-- A symbol that the module exports has the address an import of it is bound to, and one that it does not export has none. -/
structure SameAddress (env : DllEnv) (cfg : CmdlinePtrs) (s : DllState) (dll : Text) (base : U64) (exports : List Export) (namePtr : U64)
    (symbol : ImportSymbol) : Prop where
  same : ∀ e, findExport exports symbol = some e → ∃ addr s₁ s₂, env.getProcAddress cfg base namePtr s = some (.ok addr, s₁) ∧
    env.resolveImportAddr dll symbol s = some (.ok addr, s₂)
  zero : (∃ s₁, env.getProcAddress cfg base namePtr s = some (.ok 0, s₁)) ↔ findExport exports symbol = none

/-- The forwarders from the symbol on end at this address. Where they end nowhere, a thunk takes their place. -/
def EndsAt (env : DllEnv) (s : DllState) (name host : Text) (symbol : ImportSymbol) (addr : U64) : Prop :=
  (∃ k < MAX_FORWARDER_HOPS, Leads (moduleExports s.dll) k name symbol addr) ∨
    (∀ k < MAX_FORWARDER_HOPS, ∀ a, ¬Leads (moduleExports s.dll) k name symbol a) ∧ env.thunkOf s host symbol = addr

theorem bound_eq_iff (hImages : env.images.resolveExport = Loader.resolve) (hName : normalizeDll (env.hostOf dll) = name) {addr : U64} :
    env.bound s dll symbol = addr ↔ env.EndsAt s name (env.hostOf dll) symbol addr := by
  unfold bound EndsAt
  rw [hImages, ← hName]
  cases hResolve : Loader.resolve (moduleExports s.dll) (env.hostOf dll) symbol with
  | some a =>
    obtain ⟨k, hk, hLeads⟩ := Loader.resolve_iff.mp hResolve
    constructor
    · rintro rfl
      exact .inl ⟨k, hk, hLeads⟩
    · rintro (hEnds | ⟨hNowhere, -⟩)
      · exact Option.some.inj (hResolve.symm.trans (Loader.resolve_iff.mpr hEnds))
      · exact absurd hLeads (hNowhere k hk a)
  | none =>
    have hNowhere : ∀ k < MAX_FORWARDER_HOPS, ∀ a, ¬Leads (moduleExports s.dll) k (normalizeDll (env.hostOf dll)) symbol a := by
      intro k hk a hLeads
      have hSome := Loader.resolve_iff.mpr ⟨k, hk, hLeads⟩
      rw [hResolve] at hSome
      cases hSome
    constructor
    · exact fun hThunk => .inr ⟨hNowhere, hThunk⟩
    · rintro (⟨k, hk, hLeads⟩ | ⟨-, hThunk⟩)
      · exact absurd hLeads (hNowhere k hk addr)
      · exact hThunk

def forwardingFile : List U8 :=
  Loader.smallFile [⟨0x1000, 53⟩] 0x1000
    (Loader.zeros 16 ++ Loader.le32 1 ++ Loader.le32 2 ++ Loader.le32 0 ++ Loader.le32 0x1028 ++ Loader.le32 0 ++ Loader.le32 0 ++
      Loader.le32 0x1030 ++ Loader.le32 0x1800 ++ [0x78, 0x2E, 0x23, 0x32, 0])

def forwardingEnv : DllEnv := { smallEnv forwardingFile with images := peImageLoader 4 (fun _ => none) Loader.resolve }

def forwardingExports : List Export := (Loader.PeImage.ofFile forwardingFile).exports

def forwardingState : DllState :=
  { smallState with dll := register "x.dll".toList 0x20000000 forwardingExports smallState.dll }

def smallPtrs : CmdlinePtrs := ⟨0, 0⟩

end DllEnv

end Exemu.Os
