import Mathlib
import Exemu.Os.Namespace

/-! # Window titles

A title is one text. The messages that set it, fetch it and ask for its length come in an ANSI and
in a Unicode form, which differ in what a character of the caller is: a byte of UTF-8, or a unit
of UTF-16.
-/
namespace Exemu.Os.WindowText

open List Nat

open Path (Text)
open Loader (fromUtf8Lossy utf8LossyFrom decodeUtf8 REPLACEMENT_CHARACTER)
open ApiSet (unitBytes unitsOf unitBytes_cons length_unitBytes)

/-! ## The messages -/

/-- The loop of `read_astr` and `read_wstr` over what lies in the guest's memory: up to a zero, or as many characters as it takes.
Nothing is read if the memory ends before. -/
def readUntil {w : Nat} (limit : Nat) : Nat → List (BitVec w) → Option (List (BitVec w))
  | _, [] => none
  | i, u :: us => if u = 0 ∨ limit < i then some [] else (readUntil limit (i + 1) us).map (u :: ·)

def readAstr (guest : List U8) : Option Text := (readUntil (1 <<< 20) 0 guest).map fromUtf8Lossy

def readWstr (guest : List U8) : Option Text := (readUntil (1 <<< 16) 0 (unitsOf guest)).map fromUtf16Lossy

/-- `guest` is what lies at the pointer, unless the pointer is null. -/
def readTextParam (guest : Option (List U8)) (ansi : Bool) : Option Text :=
  match guest with
  | none => some []
  | some bytes => if ansi then readAstr bytes else readWstr bytes

/-- What a message returns, and the bytes it writes from the caller's pointer on. -/
structure Answer where
  result : Nat
  stored : List U8
deriving DecidableEq

/-- `WM_GETTEXT`, which does not ask for the form. -/
def getText (title : Text) (max : Nat) (ptr : U64) : Answer :=
  if ptr = 0 ∨ max = 0 then ⟨0, []⟩
  else
    let units := (encodeUtf16 title).take (max - 1)
    ⟨units.length, unitBytes units ++ [0, 0]⟩

/-- `WM_GETTEXTLENGTH` -/
def getTextLength (title : Text) : Nat := title.length

def ntUserInternalGetWindowText (title : Text) (max : Nat) (ptr : U64) : Answer :=
  if ptr = 0 ∨ max = 0 then ⟨0, []⟩
  else
    let units := encodeUtf16 title
    let n := min units.length (max - 1)
    ⟨n, unitBytes (units.take n) ++ [0, 0]⟩

/-! ## What callers expect -/

/-- `char::encode_utf8` -/
def utf8Bytes (v : Nat) : List U8 :=
  if v < 0x80 then [BitVec.ofNat 8 v]
  else if v < 0x800 then [BitVec.ofNat 8 (0xC0 + v / 64), BitVec.ofNat 8 (0x80 + v % 64)]
  else if v < 0x10000 then [BitVec.ofNat 8 (0xE0 + v / 4096), BitVec.ofNat 8 (0x80 + v / 64 % 64), BitVec.ofNat 8 (0x80 + v % 64)]
  else [BitVec.ofNat 8 (0xF0 + v / 262144), BitVec.ofNat 8 (0x80 + v / 4096 % 64), BitVec.ofNat 8 (0x80 + v / 64 % 64),
    BitVec.ofNat 8 (0x80 + v % 64)]

def encodeUtf8 (t : Text) : List U8 := t.flatMap fun c => utf8Bytes c.toNat

structure GuestText where
  chars : Text
  noZero : Char.ofNat 0 ∉ chars

def width (ansi : Bool) : Nat := if ansi then 1 else 2

namespace GuestText

def bytes (ansi : Bool) (t : GuestText) : List U8 := if ansi then encodeUtf8 t.chars else unitBytes (encodeUtf16 t.chars)

def length (ansi : Bool) (t : GuestText) : Nat := if ansi then (encodeUtf8 t.chars).length else (encodeUtf16 t.chars).length

def laid (ansi : Bool) (t : GuestText) (behind : List U8) : List U8 := t.bytes ansi ++ List.replicate (width ansi) 0 ++ behind

end GuestText

inductive Message where
  | setText (ansi : Bool) (t : GuestText) (behind : List U8)
  | getText (ansi : Bool) (max : Nat) (ptr : U64)
  | getTextLength (ansi : Bool)
  | internalGetText (max : Nat) (ptr : U64)

structure Desk where
  title : Text
  lastSet : Option (Bool × GuestText)

def Desk.start (title : Text) : Desk := ⟨title, none⟩

def Desk.next (d : Desk) : Message → Desk
  | .setText ansi t behind =>
    match readTextParam (some (t.laid ansi behind)) ansi with
    | none => d
    | some title => ⟨title, some (ansi, t)⟩
  | .getText .. | .getTextLength _ | .internalGetText .. => d

/-- No more characters are written than there is room for, and with room enough they are those of the text that was set
in the same form. -/
structure Fetches (d : Desk) (ansi : Bool) (max : Nat) (ptr : U64) (answer : Answer) : Prop where
  room : answer.stored.length ≤ max * width ansi
  same : ∀ t, d.lastSet = some (ansi, t) → ptr ≠ 0 → t.length ansi < max → answer.stored.take (answer.result * width ansi) = t.bytes ansi

def Message.Meets (d : Desk) : Message → Prop
  | .setText .. => True
  | .getText ansi max ptr => Fetches d ansi max ptr (WindowText.getText d.title max ptr)
  | .getTextLength _ => ∀ max ptr, (WindowText.getText d.title max ptr).result ≤ WindowText.getTextLength d.title
  | .internalGetText max ptr => Fetches d false max ptr (ntUserInternalGetWindowText d.title max ptr)

def wideLimit : Nat := 2 ^ 16 + 1

/-- An ANSI caller has room for the text in UTF-16, and has set none of more than a byte. -/
def FineAnsi (d : Desk) (max : Nat) (ptr : U64) : Prop :=
  (ptr = 0 ∨ max = 0 ∨ 2 * (encodeUtf16 d.title).length + 2 ≤ max) ∧
    ∀ t, d.lastSet = some (true, t) → ptr ≠ 0 → t.length true < max → t.length true ≤ 1

def FineWide (d : Desk) (max : Nat) (ptr : U64) : Prop :=
  ∀ t, d.lastSet = some (false, t) → ptr ≠ 0 → t.length false < max → t.length false ≤ wideLimit

def Message.Fine (d : Desk) : Message → Prop
  | .setText .. => True
  | .getText ansi max ptr => if ansi then FineAnsi d max ptr else FineWide d max ptr
  | .getTextLength _ => ∀ c ∈ d.title, c.toNat < 0x10000
  | .internalGetText max ptr => FineWide d max ptr

/-! ## Reading -/

theorem readUntil_text {w : Nat} {limit : Nat} {us : List (BitVec w)} (hUnits : 0 ∉ us) (i : Nat) (rest : List (BitVec w)) :
    readUntil limit i (us ++ 0 :: rest) = some (us.take (limit + 1 - i)) := by
  induction us generalizing i with
  | nil => rw [nil_append, readUntil, if_pos (.inl rfl), take_nil]
  | cons u us ih =>
    have hRest := ih (fun hMem => hUnits (mem_cons_of_mem u hMem)) (i + 1)
    have hNe : u ≠ 0 := fun hZero => hUnits (hZero ▸ mem_cons_self)
    rw [cons_append, readUntil]
    rcases lt_or_ge limit i with hFull | hRoom
    · rw [if_pos (.inr hFull), show limit + 1 - i = 0 by omega, take_zero]
    · rw [if_neg (not_or.mpr ⟨hNe, Nat.not_lt.mpr hRoom⟩), hRest, show limit + 1 - i = limit + 1 - (i + 1) + 1 by omega, take_succ_cons,
        Option.map_some]

theorem unitsOf_append (us : List U16) (rest : List U8) : unitsOf (unitBytes us ++ rest) = us ++ unitsOf rest := by
  induction us with
  | nil => rfl
  | cons u us ih =>
    have hOne : unitsOf (unitBytes [u]) = [u] := ApiSet.unitsOf_unitBytes [u]
    have hHead : unitsOf (unitBytes (u :: us) ++ rest) = (unitsOf (unitBytes [u])).headD 0 :: unitsOf (unitBytes us ++ rest) := rfl
    rw [hHead, hOne, ih]
    rfl

/-! ## Bytes of UTF-8 -/

theorem plain_byte {n : Nat} (hLow : 0 < n) (hHigh : n < 255) : BitVec.ofNat 8 n ≠ 0 ∧ BitVec.ofNat 8 n ≠ 0xFF := by
  constructor <;>
  · intro hEq
    have hNat := congrArg BitVec.toNat hEq
    rw [BitVec.toNat_ofNat, mod_eq_of_lt (by omega)] at hNat
    simp at hNat
    omega

theorem utf8Bytes_plain {v : Nat} (hZero : v ≠ 0) (hValid : v < 0x110000) : ∀ b ∈ utf8Bytes v, b ≠ 0 ∧ b ≠ 0xFF := by
  intro b hb
  unfold utf8Bytes at hb
  split at hb
  · rw [List.mem_singleton.mp hb]
    exact plain_byte (by omega) (by omega)
  split at hb
  · simp only [mem_cons, not_mem_nil, or_false] at hb
    rcases hb with rfl | rfl <;> exact plain_byte (by omega) (by omega)
  split at hb
  · simp only [mem_cons, not_mem_nil, or_false] at hb
    rcases hb with rfl | rfl | rfl <;> exact plain_byte (by omega) (by omega)
  · simp only [mem_cons, not_mem_nil, or_false] at hb
    rcases hb with rfl | rfl | rfl | rfl <;> exact plain_byte (by omega) (by omega)

theorem toNat_lt (c : Char) : c.toNat < 0x110000 := by
  have hValid : c.toNat < 0xD800 ∨ 0xDFFF < c.toNat ∧ c.toNat < 0x110000 := c.valid
  omega

variable (t : GuestText) {d : Desk}

theorem GuestText.plain : ∀ b ∈ encodeUtf8 t.chars, b ≠ 0 ∧ b ≠ 0xFF := by
  intro b hb
  obtain ⟨c, hc, hByte⟩ := List.mem_flatMap.mp hb
  refine utf8Bytes_plain (fun hZero => t.noZero ?_) (toNat_lt c) b hByte
  rwa [← hZero, Char.ofNat_toNat]

/-! ## Units of what was read -/

def units (c : Char) : Nat := if c.toNat < 0x10000 then 1 else 2

theorem length_encodeUtf16_cons (c : Char) (t : Text) : (encodeUtf16 (c :: t)).length = units c + (encodeUtf16 t).length := by
  rw [encodeUtf16, flatMap_cons, length_append, units, encodeUtf16]
  congr 1
  split <;> rfl

theorem units_le (c : Char) : units c ≤ 2 := by
  unfold units
  split <;> omega

theorem toNat_ofNat_le (n : Nat) : (Char.ofNat n).toNat ≤ n := by
  unfold Char.ofNat
  split
  · exact le_refl n
  · exact zero_le n

theorem units_ofNat {n : Nat} (h : n < 0x10000) : units (Char.ofNat n) = 1 := by
  exact if_pos ((toNat_ofNat_le n).trans_lt h)

theorem length_encode_lossy (us : List U16) : (encodeUtf16 (fromUtf16Lossy us)).length ≤ us.length := by
  fun_induction fromUtf16Lossy us with
  | case1 => exact le_refl 0
  | case2 u us hOne ih =>
    rw [length_encodeUtf16_cons, units_ofNat u.isLt, length_cons]
    omega
  | case3 u hOne v vs hPair ih =>
    have hUnits := units_le (Char.ofNat (0x10000 + (u.toNat - 0xD800) * 0x400 + (v.toNat - 0xDC00)))
    rw [length_encodeUtf16_cons, length_cons, length_cons]
    omega
  | case4 u hOne v vs hPair ih =>
    have hUnits : units '\uFFFD' = 1 := rfl
    rw [length_encodeUtf16_cons, hUnits, length_cons]
    omega
  | case5 u hOne => exact le_refl 1

theorem two_byte_value (b second : Nat) : b % 32 * 64 + second % 64 < 0x800 := by omega

theorem utf8Lead_places {b lo hi n : Nat} (h : Loader.utf8Lead b = some (lo, hi, n)) : n = 1 ∨ 2 ≤ n := by
  unfold Loader.utf8Lead at h
  split_ifs at h <;>
  · cases h
    decide

theorem decodeUtf8_units (b : U8) (bs : List U8) : (decodeUtf8 b bs).2 ≤ bs.length ∧ units (decodeUtf8 b bs).1 ≤ (decodeUtf8 b bs).2 + 1 ∧
    (units (decodeUtf8 b bs).1 = (decodeUtf8 b bs).2 + 1 → (decodeUtf8 b bs).1.toNat < 0x80 ∨ (decodeUtf8 b bs).1 = REPLACEMENT_CHARACTER) := by
  have hReplaced : units REPLACEMENT_CHARACTER = 1 := rfl
  unfold decodeUtf8
  split
  · rename_i hAscii
    have hUnits := units_ofNat (n := b.toNat) (by omega)
    exact ⟨zero_le _, hUnits.le, fun _ => .inl ((toNat_ofNat_le _).trans_lt hAscii)⟩
  · split
    · rename_i lo hi n second rest hLead
      split
      · dsimp only
        split
        · rename_i hTail
          have hLength : n - 1 ≤ rest.length := by
            rw [← hTail]
            exact (takeWhile_sublist _).length_le.trans (length_take_le' ..)
          refine ⟨by rw [length_cons]; omega, ?_, fun hEqual => absurd hEqual ?_⟩ <;>
          · have hPlaces := utf8Lead_places hLead
            have hUnits := units_le (Char.ofNat ((second :: (rest.take (n - 1)).takeWhile Loader.isContinuation).foldl
              (fun acc x => acc * 64 + x.toNat % 64) (b.toNat % 2 ^ (6 - n))))
            rcases hPlaces with rfl | hMore
            · have hShort := (two_byte_value b.toNat second.toNat).trans (by decide : 0x800 < 0x10000)
              have hOne : units (Char.ofNat ((second :: (rest.take (1 - 1)).takeWhile Loader.isContinuation).foldl
                (fun acc x => acc * 64 + x.toNat % 64) (b.toNat % 2 ^ (6 - 1)))) = 1 := units_ofNat hShort
              dsimp only at hOne ⊢
              omega
            · dsimp only
              omega
        · rename_i hTail
          have hLength : ((rest.take (n - 1)).takeWhile Loader.isContinuation).length ≤ rest.length :=
            (takeWhile_sublist _).length_le.trans (length_take_le' ..)
          refine ⟨?_, ?_, fun _ => .inr rfl⟩
          · rw [length_cons]
            omega
          · rw [hReplaced]
            omega
      · exact ⟨zero_le _, hReplaced.le, fun _ => .inr rfl⟩
    · exact ⟨zero_le _, hReplaced.le, fun _ => .inr rfl⟩

theorem length_utf8LossyFrom (k : Nat) (bs : List U8) (hk : k ≤ bs.length) : (encodeUtf16 (utf8LossyFrom k bs)).length ≤ bs.length - k := by
  fun_induction utf8LossyFrom k bs with
  | case1 => exact zero_le _
  | case2 skip b bs ih =>
    have hRest := ih (le_of_succ_le_succ hk)
    rw [length_cons]
    omega
  | case3 b bs ih =>
    obtain ⟨hTaken, hUnits, -⟩ := decodeUtf8_units b bs
    have hRest := ih hTaken
    rw [length_encodeUtf16_cons, length_cons]
    omega

/-! ## Fetching -/

section Fetching

variable {title : Text} {max : Nat} {ptr : U64}

theorem internalGetText_eq (title : Text) (max : Nat) (ptr : U64) : ntUserInternalGetWindowText title max ptr = getText title max ptr := by
  unfold ntUserInternalGetWindowText getText
  split
  · rfl
  · have hTake : (encodeUtf16 title).take (min (encodeUtf16 title).length (max - 1)) = (encodeUtf16 title).take (max - 1) := by
      rw [take_eq_take_iff]
      omega
    dsimp only
    rw [hTake, length_take, min_comm]

theorem getText_stored (hPtr : ptr ≠ 0) (hMax : max ≠ 0) :
    (getText title max ptr).stored.length = 2 * min (max - 1) (encodeUtf16 title).length + 2 := by
  rw [getText, if_neg (not_or.mpr ⟨hPtr, hMax⟩), length_append, length_unitBytes, length_take, mul_comm]
  rfl

theorem wide_room (title : Text) (max : Nat) (ptr : U64) : (getText title max ptr).stored.length ≤ max * width false := by
  have hWidth : width false = 2 := rfl
  by_cases hNone : ptr = 0 ∨ max = 0
  · rw [getText, if_pos hNone]
    exact zero_le _
  · have hPos := pos_of_ne_zero (not_or.mp hNone).2
    rw [getText_stored (not_or.mp hNone).1 (not_or.mp hNone).2, hWidth]
    omega

theorem ansi_room_iff (title : Text) (max : Nat) (ptr : U64) : (getText title max ptr).stored.length ≤ max * width true ↔
    ptr = 0 ∨ max = 0 ∨ 2 * (encodeUtf16 title).length + 2 ≤ max := by
  have hWidth : width true = 1 := rfl
  by_cases hNone : ptr = 0 ∨ max = 0
  · rw [getText, if_pos hNone]
    exact iff_of_true (zero_le _) (hNone.imp_right .inl)
  · obtain ⟨hPtr, hMax⟩ := not_or.mp hNone
    have hPos := pos_of_ne_zero hMax
    rw [getText_stored hPtr hMax, hWidth, or_iff_right hPtr, or_iff_right hMax]
    omega

theorem getText_full (hPtr : ptr ≠ 0) (hFits : (encodeUtf16 title).length < max) :
    getText title max ptr = ⟨(encodeUtf16 title).length, unitBytes (encodeUtf16 title) ++ [0, 0]⟩ := by
  have hMax : max ≠ 0 := by
    rintro rfl
    exact absurd hFits (not_lt_zero _)
  rw [getText, if_neg (not_or.mpr ⟨hPtr, hMax⟩), take_of_length_le (by omega)]

theorem getText_result_le (title : Text) (max : Nat) (ptr : U64) : (getText title max ptr).result ≤ (encodeUtf16 title).length := by
  unfold getText
  split
  · exact zero_le _
  · exact length_take_le' ..

end Fetching

/-! ## Length -/

theorem length_encodeUtf16_iff (t : Text) : (encodeUtf16 t).length ≤ t.length ↔ ∀ c ∈ t, c.toNat < 0x10000 := by
  have hAtLeast : ∀ t : Text, t.length ≤ (encodeUtf16 t).length := by
    intro t
    induction t with
    | nil => exact le_refl 0
    | cons c t ih =>
      have hUnits : 1 ≤ units c := by
        unfold units
        split <;> decide
      rw [length_encodeUtf16_cons, length_cons]
      omega
  induction t with
  | nil => exact iff_of_true (le_refl 0) (by simp)
  | cons c t ih =>
    have hRest := hAtLeast t
    rw [length_encodeUtf16_cons, length_cons, forall_mem_cons, units]
    split
    · rename_i hOne
      refine Iff.trans ?_ (ih.trans (and_iff_right hOne).symm)
      omega
    · rename_i hTwo
      exact iff_of_false (by omega) fun h => hTwo h.1

/-! ## Setting and fetching -/

def heard (ansi : Bool) (t : GuestText) : Text :=
  if ansi then fromUtf8Lossy ((encodeUtf8 t.chars).take (2 ^ 20 + 1)) else fromUtf16Lossy ((encodeUtf16 t.chars).take wideLimit)

theorem readTextParam_laid (ansi : Bool) (t : GuestText) (behind : List U8) :
    readTextParam (some (t.laid ansi behind)) ansi = some (heard ansi t) := by
  cases ansi with
  | true =>
    have hLaid : t.laid true behind = encodeUtf8 t.chars ++ 0 :: behind := by
      rw [GuestText.laid, append_assoc]
      rfl
    have hRead := @readUntil_text _ (1 <<< 20) _ (fun hMem => (t.plain 0 hMem).1 rfl) 0 behind
    rw [readTextParam, if_pos rfl, readAstr, hLaid, hRead, Option.map_some]
    rfl
  | false =>
    have hLaid : unitsOf (t.laid false behind) = encodeUtf16 t.chars ++ 0 :: unitsOf behind := by
      rw [GuestText.laid, append_assoc]
      exact unitsOf_append ..
    have hRead := @readUntil_text _ (1 <<< 16) _ (zero_not_mem_encode t.noZero) 0 (unitsOf behind)
    rw [readTextParam, if_neg Bool.false_ne_true, readWstr, hLaid, hRead, Option.map_some]
    rfl

theorem wide_same_iff {max : Nat} {ptr : U64} (hPtr : ptr ≠ 0) (hMax : t.length false < max) :
    (getText (heard false t) max ptr).stored.take ((getText (heard false t) max ptr).result * width false) = t.bytes false ↔
      t.length false ≤ wideLimit := by
  have hBytes : t.bytes false = unitBytes (encodeUtf16 t.chars) := rfl
  have hLength : t.length false = (encodeUtf16 t.chars).length := rfl
  have hLossy : (encodeUtf16 (heard false t)).length ≤ ((encodeUtf16 t.chars).take wideLimit).length := length_encode_lossy _
  have hTake : ((encodeUtf16 t.chars).take wideLimit).length = min wideLimit (encodeUtf16 t.chars).length := length_take
  have hWidth : width false = 2 := rfl
  rw [getText_full hPtr (by omega), hBytes, hLength]
  dsimp only
  rw [hWidth, take_left' (length_unitBytes _)]
  rcases lt_or_ge wideLimit (encodeUtf16 t.chars).length with hLong | hShort
  · refine iff_of_false (fun hSame => ?_) (by omega)
    have hLengths := congrArg List.length hSame
    rw [length_unitBytes, length_unitBytes] at hLengths
    omega
  · have hHeard : heard false t = t.chars := by
      rw [heard, if_neg Bool.false_ne_true, take_of_length_le hShort, lossy_encode]
    rw [hHeard]
    exact iff_of_true rfl hShort

theorem lossy_second {b second : U8} {bs : List U8} (h : (encodeUtf16 (fromUtf8Lossy (b :: second :: bs))).length = (b :: second :: bs).length) :
    ∃ v, (unitBytes (encodeUtf16 (fromUtf8Lossy (b :: second :: bs))))[1]? = some v ∧ (v = 0 ∨ v = 0xFF) := by
  obtain ⟨hTaken, hUnits, hEqual⟩ := decodeUtf8_units b (second :: bs)
  have hRest := length_utf8LossyFrom (decodeUtf8 b (second :: bs)).2 (second :: bs) hTaken
  have hCons : fromUtf8Lossy (b :: second :: bs) =
      (decodeUtf8 b (second :: bs)).1 :: utf8LossyFrom (decodeUtf8 b (second :: bs)).2 (second :: bs) := rfl
  rw [hCons, length_encodeUtf16_cons, length_cons] at h
  rw [hCons]
  rcases hEqual (by omega) with hAscii | hReplaced
  · have hUnit : ∀ c : Char, c.toNat < 0x80 → ∀ rest : Text, (unitBytes (encodeUtf16 (c :: rest)))[1]? = some 0 := by
      intro c hc rest
      have hEncode : encodeUtf16 (c :: rest) = BitVec.ofNat 16 c.toNat :: encodeUtf16 rest := by
        rw [encodeUtf16, flatMap_cons, if_pos (by omega)]
        rfl
      have hHigh : (((BitVec.ofNat 16 c.toNat).setWidth 64 : U64) >>> (8 * 1)).setWidth 8 = (0 : U8) := by
        refine BitVec.eq_of_toNat_eq ?_
        simp [shiftRight_eq_div_pow]
        omega
      rw [hEncode, unitBytes_cons]
      exact congrArg some hHigh
    exact ⟨0, hUnit _ hAscii _, .inl rfl⟩
  · rw [hReplaced]
    exact ⟨0xFF, rfl, .inr rfl⟩

theorem exists_two {α : Type} {xs : List α} (h : 1 < xs.length) : ∃ a b rest, xs = a :: b :: rest := by
  cases xs with
  | nil => exact absurd h (not_lt_zero 1)
  | cons a xs =>
    cases xs with
    | nil => exact absurd h (lt_irrefl 1)
    | cons b rest => exact ⟨a, b, rest, rfl⟩

theorem length_utf8Bytes (v : Nat) : 0 < (utf8Bytes v).length ∧ (0x80 ≤ v → 1 < (utf8Bytes v).length) := by
  unfold utf8Bytes
  split
  · exact ⟨one_pos, fun hLarge => absurd hLarge (by omega)⟩
  split
  · exact ⟨two_pos, fun _ => one_lt_two⟩
  split <;> exact ⟨succ_pos _, fun _ => succ_lt_succ (succ_pos _)⟩

theorem encodeUtf8_short {t : Text} (h : (encodeUtf8 t).length ≤ 1) : t = [] ∨ ∃ c : Char, c.toNat < 0x80 ∧ t = [c] := by
  cases t with
  | nil => exact .inl rfl
  | cons c rest =>
    have hLength : (encodeUtf8 (c :: rest)).length = (utf8Bytes c.toNat).length + (encodeUtf8 rest).length := by
      rw [encodeUtf8, flatMap_cons, length_append]
      rfl
    obtain ⟨hSome, hMore⟩ := length_utf8Bytes c.toNat
    have hAscii : c.toNat < 0x80 := by
      by_contra hLarge
      have hTwo := hMore (Nat.le_of_not_lt hLarge)
      omega
    cases rest with
    | nil => exact .inr ⟨c, hAscii, rfl⟩
    | cons d rest =>
      have hNext : (encodeUtf8 (d :: rest)).length = (utf8Bytes d.toNat).length + (encodeUtf8 rest).length := by
        rw [encodeUtf8, flatMap_cons, length_append]
        rfl
      have hAgain := (length_utf8Bytes d.toNat).1
      omega

theorem heard_ascii {c : Char} (hc : c.toNat < 0x80) :
    encodeUtf8 [c] = [BitVec.ofNat 8 c.toNat] ∧ fromUtf8Lossy [BitVec.ofNat 8 c.toNat] = [c] := by
  have hByte : (BitVec.ofNat 8 c.toNat).toNat = c.toNat := by
    rw [BitVec.toNat_ofNat]
    exact mod_eq_of_lt (by omega)
  refine ⟨?_, ?_⟩
  · rw [encodeUtf8, flatMap_cons, utf8Bytes, if_pos hc]
    rfl
  · have hDecode : decodeUtf8 (BitVec.ofNat 8 c.toNat) [] = (c, 0) := by
      unfold decodeUtf8
      rw [hByte, if_pos hc, Char.ofNat_toNat]
    rw [fromUtf8Lossy, utf8LossyFrom, hDecode, utf8LossyFrom]

theorem ansi_same_iff {max : Nat} {ptr : U64} (hPtr : ptr ≠ 0) (hMax : t.length true < max) :
    (getText (heard true t) max ptr).stored.take ((getText (heard true t) max ptr).result * width true) = t.bytes true ↔
      t.length true ≤ 1 := by
  have hBytes : t.bytes true = encodeUtf8 t.chars := rfl
  have hLength : t.length true = (encodeUtf8 t.chars).length := rfl
  have hTake : ((encodeUtf8 t.chars).take (2 ^ 20 + 1)).length = min (2 ^ 20 + 1) (encodeUtf8 t.chars).length := List.length_take
  have hLossy : (encodeUtf16 (heard true t)).length ≤ ((encodeUtf8 t.chars).take (2 ^ 20 + 1)).length :=
    length_utf8LossyFrom 0 _ (Nat.zero_le _)
  have hWidth : width true = 1 := rfl
  rw [getText_full hPtr (by omega), hBytes, hLength]
  dsimp only
  rw [hWidth, Nat.mul_one]
  constructor
  · intro hSame
    by_contra hLong
    have hLengths := congrArg List.length hSame
    rw [List.length_take, List.length_append, length_unitBytes] at hLengths
    have hWhole : (encodeUtf8 t.chars).take (2 ^ 20 + 1) = encodeUtf8 t.chars := List.take_of_length_le (by omega)
    have hHeard : heard true t = fromUtf8Lossy (encodeUtf8 t.chars) := by rw [heard, if_pos rfl, hWhole]
    have hPlain := t.plain
    rw [hHeard] at hSame hLengths
    obtain ⟨b, second, bs, hTwo⟩ := exists_two (Nat.lt_of_not_le hLong)
    rw [hTwo] at hSame hLengths hPlain hLong
    have hUnits : (encodeUtf16 (fromUtf8Lossy (b :: second :: bs))).length = (b :: second :: bs).length := by omega
    obtain ⟨v, hSecond, hValue⟩ := lossy_second hUnits
    have hAt := congrArg (fun xs => xs[1]?) hSame
    have hIn : 1 < (unitBytes (encodeUtf16 (fromUtf8Lossy (b :: second :: bs)))).length := by
      rw [length_unitBytes]
      omega
    rw [List.getElem?_take_of_lt (by omega), List.getElem?_append_left hIn, hSecond] at hAt
    obtain rfl : v = second := Option.some.inj hAt
    have hNot := hPlain v (List.mem_cons_of_mem b List.mem_cons_self)
    exact hValue.elim hNot.1 hNot.2
  · intro hShort
    have hWhole : (encodeUtf8 t.chars).take (2 ^ 20 + 1) = encodeUtf8 t.chars := List.take_of_length_le (by omega)
    have hHeard : heard true t = fromUtf8Lossy (encodeUtf8 t.chars) := by rw [heard, if_pos rfl, hWhole]
    rw [hHeard]
    rcases encodeUtf8_short hShort with hNone | ⟨c, hAscii, hOne⟩
    · rw [hNone]
      rfl
    · obtain ⟨hEncode, hDecode⟩ := heard_ascii hAscii
      have hUnits : encodeUtf16 [c] = [BitVec.ofNat 16 c.toNat] := by
        rw [encodeUtf16, List.flatMap_cons, if_pos (by omega)]
        rfl
      have hLow : (((BitVec.ofNat 16 c.toNat).setWidth 64 : U64) >>> (8 * 0)).setWidth 8 = BitVec.ofNat 8 c.toNat := by
        refine BitVec.eq_of_toNat_eq ?_
        simp
      rw [hOne, hEncode, hDecode, hUnits]
      exact congrArg (fun v => [v]) hLow

/-! ## Runs -/

def Told (d : Desk) : Prop := ∀ ansi t, d.lastSet = some (ansi, t) → d.title = heard ansi t

theorem told_next (h : Told d) (m : Message) : Told (d.next m) := by
  cases m with
  | setText ansi t behind =>
    rw [Desk.next, readTextParam_laid]
    intro ansi' t' hSet
    cases hSet
    rfl
  | getText ansi max ptr => exact h
  | getTextLength ansi => exact h
  | internalGetText max ptr => exact h

theorem fetches_wide_iff (h : Told d) (max : Nat) (ptr : U64) : Fetches d false max ptr (getText d.title max ptr) ↔ FineWide d max ptr := by
  constructor
  · intro hFetches t hSet hPtr hMax
    have hSame := hFetches.same t hSet hPtr hMax
    rw [h false t hSet] at hSame
    exact (wide_same_iff t hPtr hMax).mp hSame
  · refine fun hFine => ⟨wide_room .., fun t hSet hPtr hMax => ?_⟩
    rw [h false t hSet]
    exact (wide_same_iff t hPtr hMax).mpr (hFine t hSet hPtr hMax)

theorem fetches_ansi_iff (h : Told d) (max : Nat) (ptr : U64) : Fetches d true max ptr (getText d.title max ptr) ↔ FineAnsi d max ptr := by
  constructor
  · refine fun hFetches => ⟨(ansi_room_iff ..).mp hFetches.room, fun t hSet hPtr hMax => ?_⟩
    have hSame := hFetches.same t hSet hPtr hMax
    rw [h true t hSet] at hSame
    exact (ansi_same_iff t hPtr hMax).mp hSame
  · refine fun hFine => ⟨(ansi_room_iff ..).mpr hFine.1, fun t hSet hPtr hMax => ?_⟩
    rw [h true t hSet]
    exact (ansi_same_iff t hPtr hMax).mpr (hFine.2 t hSet hPtr hMax)

theorem meets_iff_fine (h : Told d) (m : Message) : m.Meets d ↔ m.Fine d := by
  cases m with
  | setText ansi t behind => exact Iff.rfl
  | getText ansi max ptr =>
    cases ansi with
    | true => exact fetches_ansi_iff h max ptr
    | false => exact fetches_wide_iff h max ptr
  | getTextLength ansi =>
    refine Iff.trans ⟨fun hLength => ?_, fun hUnits max ptr => (getText_result_le ..).trans hUnits⟩ (length_encodeUtf16_iff d.title)
    have hFull := hLength ((encodeUtf16 d.title).length + 1) 1
    rwa [getText_full (by decide) (lt_succ_self _)] at hFull
  | internalGetText max ptr =>
    rw [Message.Meets, internalGetText_eq]
    exact fetches_wide_iff h max ptr

/-- From any title on, the messages keep to the caller's characters exactly as long as no ANSI caller fetches a text with less
room than twice its units, or one of more than a byte that was set, nobody asks for the length of a title with characters of two
units, and no Unicode caller fetches a text that was too long to be read. -/
theorem title_messages_iff (title : Text) (ms : List Message) :
    Stamp.Along Desk.next (fun d m => Message.Meets d m) (.start title) ms ↔ Stamp.Along Desk.next (fun d m => Message.Fine d m) (.start title) ms :=
  Stamp.Along.iff_of_inv (fun _ m h => meets_iff_fine h m) (fun _ m h _ => told_next h m) (fun _ _ hSet => (by cases hSet)) ms

/-- Six bytes for an ANSI caller with room for three. -/
theorem ansi_overrun : ¬∀ (title : Text) (ms : List Message), Stamp.Along Desk.next (fun d m => Message.Meets d m) (.start title) ms := by
  intro hAll
  cases hAll ['A', 'B'] [.getText true 3 0x1000] with
  | cons hHead hTail => exact absurd hHead.room (by decide)

end Exemu.Os.WindowText
