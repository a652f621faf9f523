import Exemu.Loader.Retarget

/-! # Window longs

The words that a window carries for its program: some at fixed negative offsets, the others in the
extra bytes of its class.
-/
namespace Exemu.Os.WindowLong

open Loader (toLe_fromLe fromLe_toLe_four)

/-! ## The calls -/

structure Window where
  style : U32
  exStyle : U32
  wndproc : U64
  hinstance : U64
  parent : U32
  userData : U64
  id : U64
  extra : List U8

abbrev Table := U32 → Option Window

def GWLP_WNDPROC : U64 := -4
def GWLP_HINSTANCE : U64 := -6
def GWLP_HWNDPARENT : U64 := -8
def GWLP_ID : U64 := -12
def GWL_STYLE : U64 := -16
def GWL_EXSTYLE : U64 := -20
def GWLP_USERDATA : U64 := -21

def Window.long (w : Window) (offset : U64) : U64 :=
  if offset = GWL_STYLE then w.style.setWidth 64
  else if offset = GWL_EXSTYLE then w.exStyle.setWidth 64
  else if offset = GWLP_WNDPROC then w.wndproc
  else if offset = GWLP_HINSTANCE then w.hinstance
  else if offset = GWLP_HWNDPARENT then w.parent.setWidth 64
  else if offset = GWLP_USERDATA then w.userData
  else if offset = GWLP_ID then w.id
  else if 0 ≤ offset.toInt then
    if (offset + 8).toNat > w.extra.length then 0 else fromLe ((w.extra.drop offset.toNat).take 8)
  else 0

def Window.setLong (w : Window) (offset value : U64) : Window :=
  if offset = GWL_STYLE then { w with style := value.setWidth 32 }
  else if offset = GWL_EXSTYLE then { w with exStyle := value.setWidth 32 }
  else if offset = GWLP_WNDPROC then { w with wndproc := value }
  else if offset = GWLP_HINSTANCE then { w with hinstance := value }
  else if offset = GWLP_USERDATA then { w with userData := value }
  else if offset = GWLP_ID then { w with id := value }
  else if 0 ≤ offset.toInt then
    if (offset + 8).toNat ≤ w.extra.length then { w with extra := Put.overwrite w.extra offset.toNat (toLe 8 value) } else w
  else w

def getWindowLong (t : Table) (hwnd : U32) (offset : U64) : U64 :=
  match t hwnd with
  | none => 0
  | some w => w.long offset

def setWindowLong (t : Table) (hwnd : U32) (offset value : U64) : U64 × Table :=
  let previous := getWindowLong t hwnd offset
  match t hwnd with
  | none => (0, t)
  | some w => (previous, Function.update t hwnd (some (w.setLong offset value)))

inductive Call where
  | ntUserSetWindowLong (hwnd : U32) (offset value : U64)
  | ntUserSetWindowLongPtr (hwnd : U32) (offset value : U64)
  | getWindowLong (hwnd : U32) (param : U64)
  | getWindowLongPtr (hwnd : U32) (param : U64)

namespace Call

def offset : Call → U64
  | ntUserSetWindowLong _ offset _ | ntUserSetWindowLongPtr _ offset _ => (offset.setWidth 32).signExtend 64
  | getWindowLong _ param | getWindowLongPtr _ param => param

/-- What the caller gets and the windows afterwards. Who asks for four bytes looks at the low half of the answer. -/
def run (t : Table) : Call → U64 × Table
  | c@(ntUserSetWindowLong hwnd _ value) =>
    let set := setWindowLong t hwnd c.offset ((value.setWidth 32).setWidth 64)
    ((set.1.setWidth 32).setWidth 64, set.2)
  | c@(ntUserSetWindowLongPtr hwnd _ value) => setWindowLong t hwnd c.offset value
  | c@(getWindowLong hwnd _) => (((WindowLong.getWindowLong t hwnd c.offset).setWidth 32).setWidth 64, t)
  | c@(getWindowLongPtr hwnd _) => (WindowLong.getWindowLong t hwnd c.offset, t)

/-! ## The array of bytes -/

def hwnd : Call → U32
  | ntUserSetWindowLong hwnd _ _ | ntUserSetWindowLongPtr hwnd _ _ | getWindowLong hwnd _ | getWindowLongPtr hwnd _ => hwnd

def width : Call → Nat
  | ntUserSetWindowLong .. | getWindowLong .. => 4
  | ntUserSetWindowLongPtr .. | getWindowLongPtr .. => 8

def value : Call → Option U64
  | ntUserSetWindowLong _ _ value => some ((value.setWidth 32).setWidth 64)
  | ntUserSetWindowLongPtr _ _ value => some value
  | getWindowLong .. | getWindowLongPtr .. => none

end Call

def readAt (e : List U8) (off n : Nat) : U64 := ((Put.window e off n).map fromLe).getD 0

def writeAt (e : List U8) (off n : Nat) (v : U64) : List U8 := (Put.put e (off, toLe n v)).getD e

def extras (t : Table) : U32 → Option (List U8) := fun hwnd => (t hwnd).map Window.extra

def Call.spec (x : U32 → Option (List U8)) (c : Call) : U64 × (U32 → Option (List U8)) :=
  match x c.hwnd with
  | none => (0, x)
  | some e =>
    (readAt e c.offset.toNat c.width,
      match c.value with
      | none => x
      | some v => Function.update x c.hwnd (some (writeAt e c.offset.toNat c.width v)))

def ZerosAt (e : List U8) (off : Nat) : Prop := (e.drop off).take 4 = [0, 0, 0, 0]

instance (e : List U8) (off : Nat) : Decidable (ZerosAt e off) := inferInstanceAs (Decidable (_ = _))

/-- Where eight bytes are there, a write of four finds the next four zero. Where only four are, they are zero, and nothing
but a zero is written to them. -/
def Call.Narrow (c : Call) (e : List U8) : Prop :=
  c.width = 4 → c.offset.toNat + 4 ≤ e.length →
    if c.offset.toNat + 8 ≤ e.length then c.value.isSome = true → ZerosAt e (c.offset.toNat + 4)
    else ZerosAt e c.offset.toNat ∧ ∀ v ∈ c.value, v = 0

instance (c : Call) (e : List U8) : Decidable (c.Narrow e) := inferInstanceAs (Decidable (_ → _ → ite _ _ _))

def Call.Fine (t : Table) (c : Call) : Prop := ∀ e, extras t c.hwnd = some e → c.Narrow e

section Bytes

variable {e : List U8} {off : Nat}

theorem getLsbD_fromLe (bs : List U8) {i : Nat} (hi : i < 64) : (fromLe bs).getLsbD i = (bs[i / 8]?.getD 0).getLsbD (i % 8) := by
  induction bs generalizing i with
  | nil => simp [fromLe]
  | cons b bs ih =>
    have hStep : (fromLe (b :: bs)).getLsbD i = ((fromLe bs <<< 8) ||| b.setWidth 64).getLsbD i := rfl
    rw [hStep, BitVec.getLsbD_or, BitVec.getLsbD_shiftLeft, BitVec.getLsbD_setWidth]
    rcases Nat.lt_or_ge i 8 with hHere | hLater
    · simp [hi, hHere, Nat.div_eq_of_lt hHere, Nat.mod_eq_of_lt hHere]
    · have hNext : i / 8 = (i - 8) / 8 + 1 := by omega
      have hSame : (i - 8) % 8 = i % 8 := by omega
      rw [ih (by omega), BitVec.getLsbD_of_ge b i hLater, hNext, List.getElem?_cons_succ, hSame]
      simp [hi, Nat.not_lt.mpr hLater]

theorem low_fromLe (bs : List U8) : ((fromLe bs).setWidth 32).setWidth 64 = fromLe (bs.take 4) := by
  refine BitVec.eq_of_getLsbD_eq fun i hi => ?_
  rw [BitVec.getLsbD_setWidth, BitVec.getLsbD_setWidth, getLsbD_fromLe _ hi, getLsbD_fromLe _ hi]
  rcases Nat.lt_or_ge i 32 with hLow | hHigh
  · rw [List.getElem?_take_of_lt (by omega)]
    simp [hi, hLow]
  · have hNone : (bs.take 4)[i / 8]? = none := List.getElem?_eq_none ((List.length_take_le 4 bs).trans (by omega))
    rw [hNone]
    simp [Nat.not_lt.mpr hHigh]

theorem fromLe_eq_zero_iff {bs : List U8} (h : bs.length = 4) : fromLe bs = 0 ↔ bs = [0, 0, 0, 0] := by
  constructor
  · intro hZero
    have hBack : toLe bs.length (fromLe bs) = bs := toLe_fromLe (by omega)
    rw [h, hZero] at hBack
    exact hBack.symm
  · rintro rfl
    rfl

theorem toLe_eight (v : U32) : toLe 8 (v.setWidth 64) = toLe 4 (v.setWidth 64) ++ [0, 0, 0, 0] := by
  have hHigh : ∀ k, 32 ≤ k → ((v.setWidth 64 : U64) >>> k).setWidth 8 = 0 := by
    intro k hk
    refine BitVec.eq_of_getLsbD_eq fun i hi => ?_
    rw [BitVec.getLsbD_setWidth, BitVec.getLsbD_ushiftRight, BitVec.getLsbD_setWidth, BitVec.getLsbD_of_ge v _ (by omega)]
    simp
  have hSplit : List.range 8 = List.range 4 ++ [4, 5, 6, 7] := rfl
  rw [toLe, hSplit, List.map_append, ← toLe]
  congr 1
  simp only [List.map_cons, List.map_nil]
  rw [hHigh _ (by decide), hHigh _ (by decide), hHigh _ (by decide), hHigh _ (by decide)]

variable {n : Nat}

theorem readAt_of_le (h : off + n ≤ e.length) : readAt e off n = fromLe ((e.drop off).take n) := by
  rw [readAt, Put.window, if_pos h, Option.map_some, Option.getD_some]

theorem readAt_of_lt (h : e.length < off + n) : readAt e off n = 0 := by
  rw [readAt, Put.window, if_neg (by omega), Option.map_none, Option.getD_none]

theorem writeAt_of_le (h : off + n ≤ e.length) (v : U64) : writeAt e off n v = Put.overwrite e off (toLe n v) := by
  rw [writeAt, Put.put, if_pos (by rwa [length_toLe]), Option.getD_some]

theorem writeAt_of_lt (h : e.length < off + n) (v : U64) : writeAt e off n v = e := by
  rw [writeAt, Put.put, if_neg (by rw [length_toLe]; omega), Option.getD_none]

theorem readAt_iff : ((readAt e off 8).setWidth 32).setWidth 64 = readAt e off 4 ↔
    (off + 4 ≤ e.length → off + 8 ≤ e.length ∨ ZerosAt e off) := by
  rcases Nat.lt_or_ge e.length (off + 4) with hOut | hIn
  · rw [readAt_of_lt (by omega : e.length < off + 8), readAt_of_lt hOut]
    exact iff_of_true rfl fun hIn => absurd hIn (by omega)
  rcases Nat.lt_or_ge e.length (off + 8) with hLast | hWide
  · rw [readAt_of_lt hLast, readAt_of_le hIn]
    have hLength : ((e.drop off).take 4).length = 4 := by
      rw [List.length_take, List.length_drop]
      omega
    have hZero : fromLe ((e.drop off).take 4) = 0 ↔ ZerosAt e off := fromLe_eq_zero_iff hLength
    constructor
    · exact fun hSame _ => .inr (hZero.mp hSame.symm)
    · intro h
      rcases h hIn with hWide | hZeros
      · omega
      · exact (hZero.mpr hZeros).symm
  · rw [readAt_of_le hWide, readAt_of_le hIn, low_fromLe, List.take_take]
    exact iff_of_true rfl fun _ => .inl hWide

theorem writeAt_iff (v : U32) : ((readAt e off 8).setWidth 32).setWidth 64 = readAt e off 4 ∧
      writeAt e off 8 (v.setWidth 64) = writeAt e off 4 (v.setWidth 64) ↔
    (off + 4 ≤ e.length → if off + 8 ≤ e.length then ZerosAt e (off + 4) else ZerosAt e off ∧ v.setWidth 64 = (0 : U64)) := by
  rw [readAt_iff]
  rcases Nat.lt_or_ge e.length (off + 4) with hOut | hIn
  · rw [writeAt_of_lt (by omega : e.length < off + 8), writeAt_of_lt hOut]
    exact iff_of_true ⟨fun hIn => absurd hIn (by omega), rfl⟩ fun hIn => absurd hIn (by omega)
  rcases Nat.lt_or_ge e.length (off + 8) with hLast | hWide
  · rw [writeAt_of_lt hLast, writeAt_of_le hIn, eq_comm (a := e), Put.overwrite_eq_self_iff, length_toLe,
      if_neg (by omega)]
    have hBack : toLe 4 (v.setWidth 64) = [0, 0, 0, 0] ↔ v.setWidth 64 = (0 : U64) := by
      constructor
      · intro hBytes
        have hLow := fromLe_toLe_four v
        rw [hBytes] at hLow
        rw [← hLow]
        rfl
      · intro hZero
        rw [hZero]
        rfl
    constructor
    · rintro ⟨hRead, hSame⟩ -
      have hZeros : ZerosAt e off := (hRead hIn).resolve_left (by omega)
      exact ⟨hZeros, hBack.mp (hSame.symm.trans hZeros)⟩
    · intro h
      obtain ⟨hZeros, hZero⟩ := h hIn
      exact ⟨fun _ => .inr hZeros, hZeros.trans (hBack.mpr hZero).symm⟩
  · rw [writeAt_of_le hWide, writeAt_of_le hIn, toLe_eight, Put.overwrite_append_eq_iff, length_toLe, if_pos hWide]
    exact ⟨fun h _ => h.2, fun h => ⟨fun _ => .inl hWide, h hIn⟩⟩

end Bytes

/-! ## The calls on the array -/

section Calls

variable {t : Table} {hwnd : U32} {offset : U64}

theorem toNat_offset_add (h : 0 ≤ offset.toInt) : (offset + 8).toNat = offset.toNat + 8 := by
  rw [BitVec.toInt_eq_toNat_cond] at h
  bv_omega

theorem ne_of_nonneg (h : 0 ≤ offset.toInt) {named : U64} (hNamed : named.toInt < 0) : offset ≠ named := by
  rintro rfl
  omega

theorem Window.long_of_nonneg (w : Window) (h : 0 ≤ offset.toInt) : w.long offset = readAt w.extra offset.toNat 8 := by
  rw [Window.long, if_neg (ne_of_nonneg h (by decide)), if_neg (ne_of_nonneg h (by decide)), if_neg (ne_of_nonneg h (by decide)),
    if_neg (ne_of_nonneg h (by decide)), if_neg (ne_of_nonneg h (by decide)), if_neg (ne_of_nonneg h (by decide)),
    if_neg (ne_of_nonneg h (by decide)), if_pos h, toNat_offset_add h]
  rcases Nat.lt_or_ge w.extra.length (offset.toNat + 8) with hOut | hIn
  · rw [if_pos hOut, readAt_of_lt hOut]
  · rw [if_neg (by omega), readAt_of_le hIn]

theorem Window.extra_setLong (w : Window) (h : 0 ≤ offset.toInt) (v : U64) :
    (w.setLong offset v).extra = writeAt w.extra offset.toNat 8 v := by
  rw [Window.setLong, if_neg (ne_of_nonneg h (by decide)), if_neg (ne_of_nonneg h (by decide)), if_neg (ne_of_nonneg h (by decide)),
    if_neg (ne_of_nonneg h (by decide)), if_neg (ne_of_nonneg h (by decide)), if_neg (ne_of_nonneg h (by decide)), if_pos h,
    toNat_offset_add h]
  rcases Nat.lt_or_ge w.extra.length (offset.toNat + 8) with hOut | hIn
  · rw [if_neg (by omega), writeAt_of_lt hOut]
  · rw [if_pos hIn, writeAt_of_le hIn]

variable {w : Window}

theorem getWindowLong_some (hWindow : t hwnd = some w) (h : 0 ≤ offset.toInt) :
    getWindowLong t hwnd offset = readAt w.extra offset.toNat 8 := by
  rw [getWindowLong, hWindow]
  exact w.long_of_nonneg h

theorem extras_update (t : Table) (hwnd : U32) (w : Window) :
    extras (Function.update t hwnd (some w)) = Function.update (extras t) hwnd (some w.extra) := by
  funext h
  rcases eq_or_ne h hwnd with rfl | hNe
  · rw [extras, Function.update_self, Function.update_self, Option.map_some]
  · rw [extras, Function.update_of_ne hNe, Function.update_of_ne hNe, extras]

theorem setWindowLong_some (hWindow : t hwnd = some w) (h : 0 ≤ offset.toInt) (v : U64) :
    (setWindowLong t hwnd offset v).1 = readAt w.extra offset.toNat 8 ∧
      extras (setWindowLong t hwnd offset v).2 = Function.update (extras t) hwnd (some (writeAt w.extra offset.toNat 8 v)) := by
  rw [setWindowLong, hWindow]
  refine ⟨getWindowLong_some hWindow h, ?_⟩
  rw [extras_update, w.extra_setLong h]

theorem getWindowLong_none (hNone : t hwnd = none) (offset : U64) : getWindowLong t hwnd offset = 0 := by
  rw [getWindowLong, hNone]

theorem setWindowLong_none (hNone : t hwnd = none) (offset value : U64) : setWindowLong t hwnd offset value = (0, t) := by
  rw [setWindowLong, hNone]

theorem run_none {c : Call} (hNone : t c.hwnd = none) : Call.run t c = (0, t) := by
  cases c with
  | ntUserSetWindowLong hwnd place value =>
    exact congrArg (fun set : U64 × Table => ((set.1.setWidth 32).setWidth 64, set.2)) (setWindowLong_none hNone _ _)
  | ntUserSetWindowLongPtr hwnd place value => exact setWindowLong_none hNone _ _
  | getWindowLong hwnd param => exact congrArg (fun v : U64 => ((v.setWidth 32).setWidth 64, t)) (getWindowLong_none hNone _)
  | getWindowLongPtr hwnd param => exact congrArg (·, t) (getWindowLong_none hNone _)

theorem fine_iff {c : Call} (hWindow : t c.hwnd = some w) : c.Fine t ↔ c.Narrow w.extra := by
  have hExtras : extras t c.hwnd = some w.extra := by rw [extras, hWindow, Option.map_some]
  refine ⟨fun hFine => hFine _ hExtras, fun hNarrow e he => ?_⟩
  obtain rfl := Option.some.inj (hExtras.symm.trans he)
  exact hNarrow

theorem spec_some {c : Call} (hWindow : t c.hwnd = some w) : Call.spec (extras t) c =
    (readAt w.extra c.offset.toNat c.width, (c.value.elim (extras t) fun v =>
      Function.update (extras t) c.hwnd (some (writeAt w.extra c.offset.toNat c.width v)))) := by
  have hExtras : extras t c.hwnd = some w.extra := by rw [extras, hWindow, Option.map_some]
  rw [Call.spec, hExtras]
  cases c.value with
  | none => rfl
  | some v => rfl

theorem agrees_iff (t : Table) (c : Call) (h : 0 ≤ c.offset.toInt) : Trace.Agrees Call.run extras Call.spec t c ↔ c.Fine t := by
  cases hWindow : t c.hwnd with
  | none =>
    have hExtras : extras t c.hwnd = none := by rw [extras, hWindow, Option.map_none]
    rw [Trace.Agrees, run_none hWindow, Call.spec, hExtras]
    refine iff_of_true rfl fun e he => ?_
    rw [hExtras] at he
    cases he
  | some w =>
    rw [fine_iff hWindow, Trace.Agrees, spec_some hWindow, Prod.mk.injEq]
    cases c with
    | ntUserSetWindowLong hwnd place value =>
      obtain ⟨hPrevious, hExtras⟩ : _ ∧ extras (Call.run t (.ntUserSetWindowLong hwnd place value)).2 = _ :=
        setWindowLong_some hWindow h ((value.setWidth 32).setWidth 64)
      have hAnswer : (Call.run t (.ntUserSetWindowLong hwnd place value)).1 = _ := congrArg (fun v => (v.setWidth 32).setWidth 64) hPrevious
      have hUpdate : ∀ a b : List U8, Function.update (extras t) hwnd (some a) = Function.update (extras t) hwnd (some b) ↔ a = b :=
        fun a b => (Function.update_injective (extras t) hwnd).eq_iff.trans (Option.some_inj)
      rw [hAnswer, hExtras]
      refine ((and_congr_right fun _ => hUpdate _ _).trans (writeAt_iff (value.setWidth 32))).trans ?_
      refine ⟨fun hPlaces _ hIn => ?_, fun hNarrow hIn => ?_⟩
      · have hHere := hPlaces hIn
        split at hHere
        · rw [if_pos ‹_›]
          exact fun _ => hHere
        · rw [if_neg ‹_›]
          refine ⟨hHere.1, fun v hv => ?_⟩
          cases hv
          exact hHere.2
      · have hHere := hNarrow rfl hIn
        split at hHere
        · rw [if_pos ‹_›]
          exact hHere rfl
        · rw [if_neg ‹_›]
          exact ⟨hHere.1, hHere.2 _ rfl⟩
    | ntUserSetWindowLongPtr hwnd place value =>
      refine iff_of_true (setWindowLong_some hWindow h value) fun hWidth => ?_
      cases hWidth
    | getWindowLong hwnd param =>
      have hAnswer : (Call.run t (.getWindowLong hwnd param)).1 = _ :=
        congrArg (fun v => (v.setWidth 32).setWidth 64) (getWindowLong_some hWindow h)
      rw [hAnswer]
      refine (and_iff_left rfl).trans (readAt_iff.trans ?_)
      refine ⟨fun hPlaces _ hIn => ?_, fun hNarrow hIn => ?_⟩
      · split
        · intro hValue
          cases hValue
        · refine ⟨(hPlaces hIn).resolve_left ‹_›, fun v hv => ?_⟩
          cases hv
      · have hHere := hNarrow rfl hIn
        split at hHere
        · exact .inl ‹_›
        · exact .inr hHere.1
    | getWindowLongPtr hwnd param =>
      refine iff_of_true ⟨getWindowLong_some hWindow h, rfl⟩ fun hWidth => ?_
      cases hWidth

end Calls

/-- In a run of calls at offsets of the extra bytes no sum wraps, and the answers and the bytes are those of arrays of bytes
exactly if no call of four bytes meets, or leaves, more than it should in the next four. -/
theorem longs_as_bytes_iff (t : Table) (calls : List Call) (h : ∀ c ∈ calls, 0 ≤ c.offset.toInt) :
    (∀ c ∈ calls, (c.offset + 8).toNat = c.offset.toNat + 8) ∧
      (Trace.trace Call.run extras t calls = Trace.trace Call.spec id (extras t) calls ↔
        Stamp.Along (fun t c => (Call.run t c).2) Call.Fine t calls) := by
  refine ⟨fun c hc => toNat_offset_add (h c hc), ?_⟩
  rw [Trace.trace_eq_iff]
  exact Stamp.Along.congr (fun t c hc => agrees_iff t c (h c hc)) t

def roomy : Table := fun hwnd => if hwnd = 0x1000 then some ⟨0, 0, 0, 0, 0, 0, 0, List.replicate 16 0⟩ else none

def lowThenHigh : List Call := [.ntUserSetWindowLong 0x1000 0 1, .ntUserSetWindowLong 0x1000 4 7, .getWindowLong 0x1000 0]

theorem roomy_fine : Stamp.Along (fun t c => (Call.run t c).2) Call.Fine roomy lowThenHigh := by
  refine .cons ?_ (.cons ?_ (.cons ?_ (.nil _))) <;>
  · intro e he
    cases he
    decide

theorem lowThenHigh_as_bytes : Trace.trace Call.run extras roomy lowThenHigh = Trace.trace Call.spec id (extras roomy) lowThenHigh :=
  (longs_as_bytes_iff roomy lowThenHigh (by decide)).2.mpr roomy_fine

theorem low_write_clears_high : ¬∀ (t : Table) (calls : List Call), (∀ c ∈ calls, 0 ≤ c.offset.toInt) →
    Trace.trace Call.run extras t calls = Trace.trace Call.spec id (extras t) calls := by
  intro hAll
  have hSame := hAll roomy [.ntUserSetWindowLong 0x1000 4 7, .ntUserSetWindowLong 0x1000 0 1, .getWindowLong 0x1000 4] (by decide)
  have hAnswers := congrArg (List.map Prod.fst) hSame
  revert hAnswers
  decide

end Exemu.Os.WindowLong
