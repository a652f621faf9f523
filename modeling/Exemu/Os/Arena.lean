import Exemu.Library.Stack
import Exemu.Memory.Window
import Exemu.Os.LoadFailure
import Exemu.Os.Peb

/-! # The two ends of the arena

Images are placed from the low end of the arena upward, and the records of the PEB's lists are
taken from its high end downward.
-/
namespace Exemu.Os

open Path (Text)
open Loader (Section Export Import ImportSymbol PeImage)
open Fallible VirtualMemory

namespace DllEnv

/-! ## The core image -/

def queueEntry (entry base : U64) : Load Unit :=
  if entry ≠ 0 then Load.onLoader fun d => { d with pendingDllmain := d.pendingDllmain ++ [(entry, base)] } else pure ()

/-- `load_core_image`: nothing it imports is loaded first. -/
def loadCoreImage (env : DllEnv) (host name : Text) : Load (Option U64) := do
  let d := (← Fallible.get).dll
  match (env.readFile host).bind env.images.parse with
  | none => return none
  | some image =>
    let placed := env.place d image
    Load.onLoader fun _ => placed.1
    match placed.2 with
    | none => return none
    | some (base, sections) => do
      writeImage base image.headers sections
      Load.onLoader fun d => { d with exports := d.exports.insert base image.exports, byName := d.byName.insert name base }
      Fallible.each (env.bindImport base) image.imports
      Load.onLoader fun d =>
        { d with modules := d.modules ++ [⟨name, host, base, image.sizeOfImage.setWidth 64, entryOf base image, 1, 0, false, false⟩] }
      env.ldrAddModule ((← Fallible.get).dll.modules.length - 1)
      queueEntry (entryOf base image) base
      return some base

/-! ## What is to hold -/

def spot (m : Module) : Span := (m.base.toNat, m.size.toNat)

def HasLdr (env : DllEnv) (d : DllLoader) : Prop := env.pebAddr ≠ 0 ∧ d.pebLdrData ≠ 0

def Entered (d : DllLoader) : Prop := ∀ m ∈ d.modules, m.ldrEntry = 0 ∨ d.ldrArenaNext.toNat ≤ m.ldrEntry.toNat

structure Apart (env : DllEnv) (d : DllLoader) : Prop where
  modules : (d.modules.map spot).Pairwise Span.Clear
  below : env.HasLdr d → ∀ r ∈ d.modules.map spot, r.1 + r.2 ≤ d.ldrArenaNext.toNat
  entered : env.HasLdr d → Entered d

def Within (lo hi : Nat) (x : Load Unit) : Prop := Keeps (fun s s' : DllState => Confined s.mem s'.mem lo hi) x

/-- The image is mapped within a range that no module and no record has. -/
structure Reserved (env : DllEnv) (s : DllState) (image : PeImage) (base : U64) (sections : List Section) : Prop where
  modules : ∀ m ∈ s.dll.modules, m.base.toNat + m.size.toNat ≤ base.toNat
  below : env.HasLdr s.dll → base.toNat + image.sizeOfImage.toNat ≤ s.dll.ldrArenaNext.toNat
  parts : Within base.toNat (base.toNat + image.sizeOfImage.toNat) (writeImage base image.headers sections)
  bound : ∀ imp ∈ image.imports, Within base.toNat (base.toNat + image.sizeOfImage.toNat) (env.bindImport base imp)

/-! ## The condition -/

def round8 (n : Nat) : Nat := (n + 7) / 8 * 8

def recordSize (env : DllEnv) (name fullPath : Text) : Nat :=
  round8 (if env.is64bit then 0x68 else 0x38) + (round8 ((encodeUtf16 fullPath).length * 2 + 2) + round8 ((encodeUtf16 name).length * 2 + 2))

/-- The parts of the image lie within its declared size, and the image below the records. -/
structure Fits (env : DllEnv) (s : DllState) (image : PeImage) (base : U64) (sections : List Section) : Prop where
  headers : image.headers.length ≤ image.sizeOfImage.toNat
  sections : ∀ sec ∈ sections, sec.data ≠ [] → sec.rva.toNat + sec.data.length ≤ image.sizeOfImage.toNat
  imports : ∀ imp ∈ image.imports, imp.iatRva.toNat + env.ptrSize ≤ image.sizeOfImage.toNat
  below : env.HasLdr s.dll → base.toNat + imageSpan image ≤ s.dll.ldrArenaNext.toNat

def HasRoom (env : DllEnv) (s : DllState) (name fullPath : Text) : Prop :=
  env.HasLdr s.dll → env.nextBase s.dll + env.recordSize name fullPath ≤ s.dll.ldrArenaNext.toNat

def depLoad (env : DllEnv) (fuel : Nat) (dep : Text) : Load Unit :=
  if (env.findDllFile dep dep).isSome then discard (env.loadPlugin fuel dep dep) else return ()

section Along

variable (env : DllEnv) (atPlace : DllState → PeImage → U64 → List Section → Prop) (atRecord : DllState → Text → Text → Prop)

/-- The one holds whenever the load places an image, for itself or for what it imports, and the other whenever it
comes to make a record. -/
def LoadAlong : Nat → Text → Text → DllState → Prop
  | 0, _, _, _ => True
  | fuel + 1, path, name, s => ∀ file image base sections, ¬s.dll.loading.contains name = true →
    env.openImage path name = some (file, image) → (env.place s.dll image).2 = some (base, sections) →
      atPlace s image base sections ∧
        ∀ s₁, writeImage base image.headers sections { s with dll := (env.place s.dll image).1 } = some (.ok (), s₁) →
          let s₂ := { s₁ with dll := register name base image.exports s₁.dll }
          let deps := env.depNames s₂.dll image.imports []
          EachAlong (env.depLoad fuel) (fun dep s => (env.findDllFile dep dep).isSome = true → LoadAlong fuel dep dep s) deps s₂ ∧
            ∀ s₃ s₄, Fallible.each (env.depLoad fuel) deps s₂ = some (.ok (), s₃) →
              Fallible.each (env.bindImport base) image.imports s₃ = some (.ok (), s₄) → atRecord s₄ name file

def CoreAlong (host name : Text) (s : DllState) : Prop :=
  ∀ image base sections, (env.readFile host).bind env.images.parse = some image → (env.place s.dll image).2 = some (base, sections) →
    atPlace s image base sections ∧
      ∀ s₁ s₂, writeImage base image.headers sections { s with dll := (env.place s.dll image).1 } = some (.ok (), s₁) →
        Fallible.each (env.bindImport base) image.imports
            { s₁ with dll := { s₁.dll with exports := s₁.dll.exports.insert base image.exports, byName := s₁.dll.byName.insert name base } } =
          some (.ok (), s₂) → atRecord s₂ name host

end Along

/-! ## The low end -/

variable {env : DllEnv}

variable {d : DllLoader} {image : PeImage} {base : U64} {sections : List Section} {d' d'' : DllLoader} {s s' : DllState} {name : Text}

theorem place_room (hArena : env.dllBase + env.dllSize < 2 ^ 64) (h : (env.place d image).2 = some (base, sections)) :
    base.toNat = env.nextBase d ∧ env.nextBase d + imageSpan image < 2 ^ 64 := by
  have hFits : env.nextBase d + imageSpan image ≤ env.dllBase + env.dllSize := by
    refine Nat.not_lt.mp fun hFull => ?_
    rw [place_none_iff.mpr (.inl hFull)] at h
    cases h
  rw [(place_some h).1, BitVec.toNat_ofNat]
  omega

theorem placed_next (h : (env.place d image).2 = some (base, sections)) : env.nextBase (env.place d image).1 = env.nextBase d + imageSpan image := by
  obtain ⟨-, -, hPlaced⟩ := place_some h
  obtain ⟨n, hSpan, hPos⟩ := imageSpan_eq image
  rw [hPlaced]
  change pageUp (if env.nextBase d + imageSpan image = 0 then env.dllBase else env.nextBase d + imageSpan image) = _
  rw [if_neg (by omega), hSpan, nextBase, pageUp_add]

theorem size_le_span (image : PeImage) : image.sizeOfImage.toNat ≤ imageSpan image := by
  have hUp := le_pageUp image.sizeOfImage.toNat
  unfold imageSpan
  omega

/-! ## The high end -/

/-- At most `n` bytes have been taken from the high end, and nothing else has changed. -/
def Sinks (n : Nat) (d d' : DllLoader) : Prop :=
  ∃ a : U64, d' = { d with ldrArenaNext := a } ∧ a.toNat ≤ d.ldrArenaNext.toNat ∧ d.ldrArenaNext.toNat ≤ a.toNat + n

theorem Sinks.refl (d : DllLoader) : Sinks 0 d d := ⟨d.ldrArenaNext, rfl, le_rfl, le_rfl⟩

theorem Sinks.trans {m n : Nat} (h : Sinks m d d') (h' : Sinks n d' d'') : Sinks (m + n) d d'' := by
  obtain ⟨a, rfl, hLow, hHigh⟩ := h
  obtain ⟨b, rfl, hLow', hHigh'⟩ := h'
  dsimp only at hLow' hHigh'
  exact ⟨b, rfl, by omega, by omega⟩

theorem Sinks.mono {m n : Nat} (h : Sinks m d d') (hLess : m ≤ n) : Sinks n d d' := by
  obtain ⟨a, hSame, hLow, hHigh⟩ := h
  exact ⟨a, hSame, hLow, by omega⟩

/-- The program takes at most `n` bytes from the high end, if there are as many. -/
def Sinking (n : Nat) {α : Type} (x : Load α) : Prop :=
  ∀ s r s', n ≤ s.dll.ldrArenaNext.toNat → x s = some (r, s') → Sinks n s.dll s'.dll

namespace Sinking

variable {α β : Type} {m n : Nat}

theorem bind {x : Load α} {f : α → Load β} (hx : Sinking m x) (hf : ∀ a, Sinking n (f a)) : Sinking (m + n) (x >>= f) := by
  intro s r s' hRoom h
  rcases bind_run h with ⟨a, s₁, hFirst, hThen⟩ | ⟨e, hFirst, -⟩
  · have hSinks := hx s _ s₁ (by omega) hFirst
    have hSplit := hSinks
    obtain ⟨b, hSame, hLow, hHigh⟩ := hSplit
    have hLeft : n ≤ s₁.dll.ldrArenaNext.toNat := by
      rw [hSame]
      dsimp only
      omega
    exact hSinks.trans (hf a s₁ r s' hLeft hThen)
  · exact (hx s _ s' (by omega) hFirst).mono (Nat.le_add_right _ _)

theorem quiet {x : Load α} {f : α → Load β} (hx : Sinking n x) (hf : ∀ a, Sinking 0 (f a)) : Sinking n (x >>= f) := bind hx hf

theorem pure (a : α) : Sinking 0 (Pure.pure a : Load α) := by
  rintro s r s' - h
  cases h
  exact .refl _

theorem get : Sinking 0 (Fallible.get : Load DllState) := by
  rintro s r s' - h
  cases h
  exact .refl _

theorem step {f : DllState → Except EmuError (α × DllState)} (hf : ∀ s a s', f s = .ok (a, s') → s'.dll = s.dll) :
    Sinking 0 (Fallible.step f) := by
  rintro s r s' - h
  unfold Fallible.step at h
  split at h
  · rename_i a s₁ hOk
    cases h
    rw [hf s a _ hOk]
    exact .refl _
  · cases h
    exact .refl _

theorem write (addr : U64) (bytes : List U8) : Sinking 0 (Load.write addr bytes) := by
  refine step fun s a s' h => ?_
  cases hWrite : s.mem.write addr bytes with
  | error e =>
    rw [hWrite] at h
    cases h
  | ok mem =>
    rw [hWrite] at h
    cases h
    rfl

theorem read (addr : U64) (k : Nat) : Sinking 0 (Load.read addr k) := by
  refine step fun s a s' h => ?_
  cases hRead : s.mem.read addr k with
  | error e =>
    rw [hRead] at h
    cases h
  | ok bytes =>
    rw [hRead] at h
    cases h
    rfl

theorem each {f : β → Load Unit} (hf : ∀ b, Sinking 0 (f b)) (bs : List β) : Sinking 0 (Fallible.each f bs) := by
  induction bs with
  | nil => exact pure ()
  | cons b bs ih => exact quiet (hf b) fun _ => ih

end Sinking

theorem ldrAlloc_run {size : Nat} {r : Except EmuError U64} (hRoom : round8 size ≤ s.dll.ldrArenaNext.toNat) (h : ldrAlloc size s = some (r, s')) :
    r = .ok s'.dll.ldrArenaNext ∧ Sinks (round8 size) s.dll s'.dll := by
  have hWide := s.dll.ldrArenaNext.isLt
  cases h
  refine ⟨rfl, _, rfl, ?_⟩
  have hTaken : (s.dll.ldrArenaNext - BitVec.ofNat 64 ((size + 7) / 8 * 8)).toNat = s.dll.ldrArenaNext.toNat - round8 size := by
    unfold round8 at hRoom ⊢
    rw [BitVec.toNat_sub, BitVec.toNat_ofNat]
    omega
  rw [hTaken]
  omega

theorem ldrAlloc_sinking (size : Nat) : Sinking (round8 size) (ldrAlloc size) := fun _ _ _ hRoom h => (ldrAlloc_run hRoom h).2

theorem writeUnits_sinking (addr : U64) (us : List U16) : Sinking 0 (writeUnits addr us) := by
  induction us generalizing addr with
  | nil => exact .write _ _
  | cons u us ih => exact .quiet (.write _ _) fun _ => ih _

theorem ldrWriteWstr_sinking (t : Text) : Sinking (round8 ((encodeUtf16 t).length * 2 + 2)) (ldrWriteWstr t) :=
  .quiet (ldrAlloc_sinking _) fun _ => .quiet (writeUnits_sinking _ _) fun _ => .pure _

theorem writeUnicodeString_sinking (at' buffer : U64) (byteLen : U16) : Sinking 0 (env.writeUnicodeString at' buffer byteLen) :=
  .quiet (.write _ _) fun _ => .quiet (.write _ _) fun _ => .write _ _

theorem listInsertTail_sinking (head link : U64) : Sinking 0 (env.listInsertTail head link) := by
  refine .quiet (.quiet (.read _ _) fun _ => .pure _) fun blink => ?_
  refine .quiet (.write _ _) fun _ => ?_
  refine .quiet (.write _ _) fun _ => ?_
  exact .quiet (.write _ _) fun _ => .write _ _

theorem ldrThreadEntry_run {size entry : U64} {fullPath : Text} {r : Except EmuError U64} (hRoom : env.recordSize name fullPath ≤ s.dll.ldrArenaNext.toNat)
    (h : env.ldrThreadEntry base size entry name fullPath s = some (r, s')) :
    Sinks (env.recordSize name fullPath) s.dll s'.dll ∧ ∀ te, r = .ok te → s'.dll.ldrArenaNext.toNat ≤ te.toNat := by
  have hEntry : (if env.is64bit then ((0x30 : U64), (0x38 : U64), (0x40 : U64), (0x48 : U64), (0x58 : U64), 0x68) else
      (0x18, 0x1c, 0x20, 0x24, 0x2c, 0x38)).2.2.2.2.2 = if env.is64bit then 0x68 else 0x38 := by
    split <;> rfl
  unfold recordSize at hRoom ⊢
  rcases bind_run h with ⟨te, s₁, hAlloc, hRest⟩ | ⟨e, hAlloc, rfl⟩
  · replace hAlloc : ldrAlloc (if env.is64bit then 0x68 else 0x38) s = some (.ok te, s₁) := by
      rw [← hEntry]
      exact hAlloc
    obtain ⟨hHere, hTaken⟩ := ldrAlloc_run (by omega) hAlloc
    cases hHere
    have hLeft : round8 ((encodeUtf16 fullPath).length * 2 + 2) + round8 ((encodeUtf16 name).length * 2 + 2) ≤ s₁.dll.ldrArenaNext.toNat := by
      obtain ⟨a, hSame, -, hHigh⟩ := hTaken
      rw [hSame]
      dsimp only
      omega
    have hNames : Sinks (round8 ((encodeUtf16 fullPath).length * 2 + 2) + round8 ((encodeUtf16 name).length * 2 + 2)) s₁.dll s'.dll := by
      refine Sinking.bind (ldrWriteWstr_sinking fullPath) (fun fullBuf => ?_) s₁ r s' hLeft hRest
      refine .quiet (ldrWriteWstr_sinking name) fun baseBuf => ?_
      refine .quiet (.write _ _) fun _ => .quiet (.write _ _) fun _ => .quiet (.write _ _) fun _ => ?_
      refine .quiet (writeUnicodeString_sinking _ _ _) fun _ => .quiet (writeUnicodeString_sinking _ _ _) fun _ => ?_
      exact .quiet .get fun s => .quiet (.each (fun offs => listInsertTail_sinking _ _) _) fun _ => .pure _
    refine ⟨hTaken.trans hNames, ?_⟩
    rintro te rfl
    obtain ⟨fullBuf, s₂, -, hRest⟩ := bind_ok_run hRest
    obtain ⟨baseBuf, s₃, -, hRest⟩ := bind_ok_run hRest
    obtain ⟨-, s₄, -, hRest⟩ := bind_ok_run hRest
    obtain ⟨-, s₅, -, hRest⟩ := bind_ok_run hRest
    obtain ⟨-, s₆, -, hRest⟩ := bind_ok_run hRest
    obtain ⟨-, s₇, -, hRest⟩ := bind_ok_run hRest
    obtain ⟨-, s₈, -, hRest⟩ := bind_ok_run hRest
    obtain ⟨s₉, s₁₀, -, hRest⟩ := bind_ok_run hRest
    obtain ⟨-, s₁₁, -, hRest⟩ := bind_ok_run hRest
    cases hRest
    obtain ⟨a, hSame, hLow, -⟩ := hNames
    rw [hSame]
    exact hLow
  · replace hAlloc : ldrAlloc (if env.is64bit then 0x68 else 0x38) s = some (.error e, s') := by
      rw [← hEntry]
      exact hAlloc
    have hTaken := (ldrAlloc_run (by omega) hAlloc).2
    refine ⟨hTaken.mono (by omega), ?_⟩
    rintro te hOk
    cases hOk

/-! ## What leaves the cursors alone -/

def Room (env : DllEnv) (d : DllLoader) : Prop := env.HasLdr d → env.nextBase d ≤ d.ldrArenaNext.toNat

structure Settled (d d' : DllLoader) : Prop where
  modules : d'.modules = d.modules
  arena : d'.arenaNext = d.arenaNext
  ldr : d'.ldrArenaNext = d.ldrArenaNext
  peb : d'.pebLdrData = d.pebLdrData

namespace Settled

variable {d d' d'' : DllLoader}

theorem refl (d : DllLoader) : Settled d d := ⟨rfl, rfl, rfl, rfl⟩

theorem of_eq (h : d' = d) : Settled d d' := h ▸ refl d

theorem trans (h : Settled d d') (h' : Settled d' d'') : Settled d d'' :=
  ⟨h'.modules.trans h.modules, h'.arena.trans h.arena, h'.ldr.trans h.ldr, h'.peb.trans h.peb⟩

theorem next (h : Settled d d') : env.nextBase d' = env.nextBase d := by
  unfold nextBase arenaStart
  rw [h.arena]

theorem room (h : Settled d d') (hRoom : env.Room d) : env.Room d' := by
  unfold Room HasLdr at hRoom ⊢
  rw [h.peb, h.next, h.ldr]
  exact hRoom

theorem entered (h : Settled d d') (hEntered : Entered d) : Entered d' := by
  unfold Entered at hEntered ⊢
  rw [h.modules, h.ldr]
  exact hEntered

end Settled

def Settles {α : Type} (x : Load α) : Prop := Keeps (fun s s' : DllState => Settled s.dll s'.dll) x

namespace Settles

variable {α β : Type}

theorem bind {x : Load α} {f : α → Load β} (hx : Settles x) (hf : ∀ a, Settles (f a)) : Settles (x >>= f) :=
  Keeps.bind (fun _ _ _ h h' => h.trans h') hx hf

theorem pure (a : α) : Settles (Pure.pure a : Load α) := Keeps.pure (fun _ => .refl _) a

theorem get : Settles (Fallible.get : Load DllState) := Keeps.get fun _ => .refl _

theorem onLoader {f : DllLoader → DllLoader} (hf : ∀ d, Settled d (f d)) : Settles (Load.onLoader f) := Keeps.modify fun s => hf s.dll

theorem write (addr : U64) (bytes : List U8) : Settles (Load.write addr bytes) := by
  refine Keeps.step (fun _ => .refl _) fun s a s' h => .of_eq ?_
  cases hWrite : s.mem.write addr bytes with
  | error e =>
    rw [hWrite] at h
    cases h
  | ok mem =>
    rw [hWrite] at h
    cases h
    rfl

theorem each {f : β → Load Unit} (hf : ∀ b, Settles (f b)) (bs : List β) : Settles (Fallible.each f bs) :=
  Keeps.each (fun _ => .refl _) (fun _ _ _ h h' => h.trans h') hf bs

end Settles

theorem resolveImportAddr_settles (dll : Text) (symbol : ImportSymbol) : Settles (env.resolveImportAddr dll symbol) := by
  refine .bind .get fun s => ?_
  split
  · exact .pure _
  · refine .bind .get fun s => ?_
    dsimp only
    split
    · exact .pure _
    · exact .bind (Keeps.modify fun s => .refl _) fun _ => .pure _

theorem bindImport_settles (base : U64) (imp : Import) : Settles (env.bindImport base imp) :=
  .bind (resolveImportAddr_settles _ _) fun _ => .write _ _

theorem writeImage_settles (base : U64) (headers : List U8) (sections : List Section) : Settles (writeImage base headers sections) := by
  refine .bind (.write _ _) fun _ => .each (fun sec => ?_) _
  unfold writeSection
  split
  · exact .pure _
  · exact .write _ _

/-! ## Staying within the range -/

section Within

variable {lo hi : Nat} {image : PeImage} {base : U64} {sections : List Section}

theorem within_bind {α : Type} {x : Load α} {f : α → Load Unit} (hx : Keeps (fun s s' : DllState => Confined s.mem s'.mem lo hi) x)
    (hf : ∀ a, Within lo hi (f a)) : Within lo hi (x >>= f) := Keeps.bind (fun _ _ _ h h' => h.trans h') hx hf

theorem write_within {addr : U64} {bytes : List U8} (hLow : lo ≤ addr.toNat) (hHigh : addr.toNat + bytes.length ≤ hi) :
    Within lo hi (Load.write addr bytes) := by
  refine Keeps.step (fun _ => .refl _ _ _) fun s a s' h => ?_
  cases hWrite : s.mem.write addr bytes with
  | error e =>
    rw [hWrite] at h
    cases h
  | ok mem =>
    rw [hWrite] at h
    cases h
    exact .write hWrite hLow hHigh

theorem offset_rva {rva : U32} (hEnd : base.toNat + rva.toNat < 2 ^ 64) : (base + rva.setWidth 64).toNat = base.toNat + rva.toNat := by
  rw [BitVec.toNat_add, BitVec.toNat_setWidth_of_le (by decide), Nat.mod_eq_of_lt hEnd]

theorem writeImage_within {headers : List U8} {size : Nat} (hEnd : base.toNat + size < 2 ^ 64) (hHeaders : headers.length ≤ size)
    (hSections : ∀ sec ∈ sections, sec.data ≠ [] → sec.rva.toNat + sec.data.length ≤ size) :
    Within base.toNat (base.toNat + size) (writeImage base headers sections) := by
  refine within_bind (write_within le_rfl (Nat.add_le_add_left hHeaders _)) fun _ => ?_
  induction sections with
  | nil => exact Keeps.pure (fun _ => .refl _ _ _) ()
  | cons sec rest ih =>
    refine within_bind ?_ fun _ => ih fun sec' h => hSections sec' (List.mem_cons_of_mem _ h)
    unfold writeSection
    split
    · exact Keeps.pure (fun _ => .refl _ _ _) ()
    · rename_i hSome
      have hIn := hSections sec List.mem_cons_self hSome
      have hHere : (base + sec.rva.setWidth 64).toNat = base.toNat + sec.rva.toNat := offset_rva (by omega)
      exact write_within (by omega) (by omega)

theorem resolveImportAddr_mem (dll : Text) (symbol : ImportSymbol) :
    Keeps (fun s s' : DllState => Confined s.mem s'.mem lo hi) (env.resolveImportAddr dll symbol) := by
  have hTrans : ∀ s₁ s₂ s₃ : DllState, Confined s₁.mem s₂.mem lo hi → Confined s₂.mem s₃.mem lo hi → Confined s₁.mem s₃.mem lo hi :=
    fun _ _ _ h h' => h.trans h'
  refine Keeps.bind hTrans (Keeps.get fun _ => .refl _ _ _) fun s => ?_
  split
  · exact Keeps.pure (fun _ => .refl _ _ _) _
  · refine Keeps.bind hTrans (Keeps.get fun _ => .refl _ _ _) fun s => ?_
    dsimp only
    split
    · exact Keeps.pure (fun _ => .refl _ _ _) _
    · exact Keeps.bind hTrans (Keeps.modify fun s => .refl _ _ _) fun _ => Keeps.pure (fun _ => .refl _ _ _) _

theorem bindImport_within {imp : Import} {size : Nat} (hEnd : base.toNat + size < 2 ^ 64) (hIat : imp.iatRva.toNat + env.ptrSize ≤ size) :
    Within base.toNat (base.toNat + size) (env.bindImport base imp) := by
  have hHere : (base + imp.iatRva.setWidth 64).toNat = base.toNat + imp.iatRva.toNat := offset_rva (by omega)
  refine within_bind (resolveImportAddr_mem _ _) fun addr => write_within (by omega) ?_
  rw [length_toLe]
  omega

end Within

/-! ## What a load adds -/

/-- Modules have been added between where the next image went and where it goes. -/
structure Adds (env : DllEnv) (d d' : DllLoader) : Prop where
  peb : d'.pebLdrData = d.pebLdrData
  next : env.nextBase d ≤ env.nextBase d'
  modules : ∃ new, d'.modules.map spot = d.modules.map spot ++ new ∧ Stacked (env.nextBase d) (env.nextBase d') new
  room : env.Room d → env.Room d'
  entered : Entered d → Entered d'

namespace Adds

variable {d d' d'' : DllLoader}

theorem of_settled (h : Settled d d') : env.Adds d d' where
  peb := h.peb
  next := h.next.ge
  modules := ⟨[], by rw [h.modules, List.append_nil], .nil⟩
  room := h.room
  entered := h.entered

theorem trans (h : env.Adds d d') (h' : env.Adds d' d'') : env.Adds d d'' where
  peb := h'.peb.trans h.peb
  next := h.next.trans h'.next
  modules := by
    obtain ⟨new, hNew, hStacked⟩ := h.modules
    obtain ⟨new', hNew', hStacked'⟩ := h'.modules
    exact ⟨new ++ new', by rw [hNew', hNew, List.append_assoc], hStacked.append hStacked' h.next h'.next⟩
  room hRoom := h'.room (h.room hRoom)
  entered hEntered := h'.entered (h.entered hEntered)

end Adds

/-- At most one module has been entered, and at most one record taken. -/
structure Enlists (env : DllEnv) (r : Span) (d d' : DllLoader) : Prop where
  peb : d'.pebLdrData = d.pebLdrData
  next : env.nextBase d' = env.nextBase d
  modules : d'.modules.map spot = d.modules.map spot ∨ d'.modules.map spot = d.modules.map spot ++ [r]
  room : env.Room d → env.Room d'
  entered : Entered d → Entered d'

theorem Enlists.settled {r : Span} (h : env.Enlists r d d') (h' : Settled d' d'') : env.Enlists r d d'' where
  peb := h'.peb.trans h.peb
  next := h'.next.trans h.next
  modules := by
    rw [h'.modules]
    exact h.modules
  room hRoom := h'.room (h.room hRoom)
  entered hEntered := h'.entered (h.entered hEntered)

theorem map_spot_modify (ms : List Module) (i : Nat) {f : Module → Module} (hf : ∀ m, spot (f m) = spot m) :
    (ms.modify i f).map spot = ms.map spot := by
  apply List.ext_getElem?
  intro j
  rw [List.getElem?_map, List.getElem?_map, List.getElem?_modify]
  cases ms[j]? with
  | none => rfl
  | some m =>
    simp only [Option.map_some]
    split
    · exact congrArg some (hf m)
    · rfl

theorem mem_modify {ms : List Module} {i : Nat} {f : Module → Module} {m : Module} (h : m ∈ ms.modify i f) : m ∈ ms ∨ ∃ m' ∈ ms, m = f m' := by
  obtain ⟨j, hj⟩ := List.mem_iff_getElem?.mp h
  rw [List.getElem?_modify] at hj
  cases hGet : ms[j]? with
  | none =>
    rw [hGet] at hj
    cases hj
  | some m' =>
    have hm' := List.mem_of_getElem? hGet
    rw [hGet] at hj
    change some (if i = j then f m' else m') = some m at hj
    obtain rfl := Option.some.inj hj
    split
    · exact .inr ⟨m', hm', rfl⟩
    · exact .inl hm'

theorem ldrAddModule_run {idx : Nat} {m : Module} {r : Except EmuError Unit} (hGet : s.dll.modules[idx]? = some m)
    (hRoom : env.HasRoom s m.name m.fullPath) (h : env.ldrAddModule idx s = some (r, s')) :
    s'.dll = s.dll ∨ env.HasLdr s.dll ∧ ∃ d, Sinks (env.recordSize m.name m.fullPath) s.dll d ∧
      (s'.dll = d ∨ ∃ te : U64, d.ldrArenaNext.toNat ≤ te.toNat ∧
        s'.dll = { d with modules := d.modules.modify idx fun m => { m with ldrEntry := te } }) := by
  change (if env.pebAddr = 0 || s.dll.pebLdrData = 0 then (pure () : Load Unit) else _) s = _ at h
  split at h
  · cases h
    exact .inl rfl
  · rename_i hThere
    rw [Bool.or_eq_true, decide_eq_true_eq, decide_eq_true_eq] at hThere
    have hLdr : env.HasLdr s.dll := not_or.mp hThere
    have hFits : env.recordSize m.name m.fullPath ≤ s.dll.ldrArenaNext.toNat := by
      have hAbove := hRoom hLdr
      omega
    rw [hGet] at h
    refine .inr ⟨hLdr, ?_⟩
    rcases bind_run h with ⟨te, s₁, hEntry, hThen⟩ | ⟨e, hEntry, -⟩
    · obtain ⟨hSinks, hAbove⟩ := ldrThreadEntry_run hFits hEntry
      cases hThen
      exact ⟨_, hSinks, .inr ⟨te, hAbove te rfl, rfl⟩⟩
    · exact ⟨_, (ldrThreadEntry_run hFits hEntry).1, .inl rfl⟩

theorem enlist_run {m : Module} {rest : Load (Option U64)} {r : Except EmuError (Option U64)} (hNew : m.ldrEntry = 0)
    (hRoom : env.HasRoom s m.name m.fullPath) (hRest : Settles rest) (h : (do
      Load.onLoader fun d => { d with modules := d.modules ++ [m] }
      env.ldrAddModule ((← Fallible.get).dll.modules.length - 1)
      rest) s = some (r, s')) : env.Enlists (spot m) s.dll s'.dll := by
  have hAll : ∀ d' : DllLoader, d'.modules = s.dll.modules ++ [m] → d'.ldrArenaNext.toNat ≤ s.dll.ldrArenaNext.toNat → Entered s.dll →
      ∀ m' ∈ d'.modules, m'.ldrEntry = 0 ∨ d'.ldrArenaNext.toNat ≤ m'.ldrEntry.toNat := by
    intro d' hSame hLow hOld m' hm'
    rw [hSame] at hm'
    rcases List.mem_append.mp hm' with hm' | hm'
    · exact (hOld m' hm').imp_right hLow.trans
    · obtain rfl := List.mem_singleton.mp hm'
      exact .inl hNew
  have hGet : (s.dll.modules ++ [m])[(s.dll.modules ++ [m]).length - 1]? = some m := by
    rw [List.length_append, List.length_singleton, Nat.add_sub_cancel, List.getElem?_concat_length]
  have hMap : (s.dll.modules ++ [m]).map spot = s.dll.modules.map spot ++ [spot m] := by rw [List.map_append, List.map_singleton]
  change (env.ldrAddModule ((s.dll.modules ++ [m]).length - 1) >>= fun _ => rest)
    { s with dll := { s.dll with modules := s.dll.modules ++ [m] } } = some (r, s') at h
  suffices hAdd : ∀ r₁ s₁, env.ldrAddModule ((s.dll.modules ++ [m]).length - 1) { s with dll := { s.dll with modules := s.dll.modules ++ [m] } } =
      some (r₁, s₁) → env.Enlists (spot m) s.dll s₁.dll by
    rcases bind_run h with ⟨done, s₁, hFirst, hThen⟩ | ⟨e, hFirst, -⟩
    · exact (hAdd _ s₁ hFirst).settled (hRest s₁ r s' hThen)
    · exact hAdd _ s' hFirst
  intro r₁ s₁ hFirst
  have hThere : env.HasRoom { s with dll := { s.dll with modules := s.dll.modules ++ [m] } } m.name m.fullPath := hRoom
  rcases ldrAddModule_run hGet hThere hFirst with hSame | ⟨hLdr, d, ⟨a, rfl, hLow, hHigh⟩, hEnd⟩
  · rw [hSame]
    exact ⟨rfl, rfl, .inr hMap, fun hOld => hOld, fun hOld => hAll _ rfl le_rfl hOld⟩
  · dsimp only at hLow hHigh
    have hAbove : env.nextBase s.dll ≤ a.toNat := by
      have hFits := hRoom hLdr
      omega
    rcases hEnd with hEnd | ⟨te, hEntry, hEnd⟩
    · rw [hEnd]
      exact ⟨rfl, rfl, .inr hMap, fun _ _ => hAbove, fun hOld => hAll _ rfl hLow hOld⟩
    · rw [hEnd]
      refine ⟨rfl, rfl, .inr ?_, fun _ _ => hAbove, fun hOld m' hm' => ?_⟩
      · refine (map_spot_modify _ _ ?_).trans hMap
        exact fun _ => rfl
      · rcases mem_modify hm' with hm' | ⟨m'', -, rfl⟩
        · exact hAll { s.dll with modules := s.dll.modules ++ [m], ldrArenaNext := a } rfl hLow hOld m' hm'
        · exact .inr hEntry

/-! ## Loading -/

theorem Settled.enlists {r : Span} (h : Settled d d') (h' : env.Enlists r d' d'') : env.Enlists r d d'' where
  peb := h'.peb.trans h.peb
  next := h'.next.trans h.next
  modules := by
    rw [← h.modules]
    exact h'.modules
  room hRoom := h'.room (h.room hRoom)
  entered hEntered := h'.entered (h.entered hEntered)

theorem Enlists.none (d : DllLoader) (r : Span) : env.Enlists r d d := ⟨rfl, rfl, .inl rfl, fun h => h, fun h => h⟩

theorem placed_adds (hArena : env.dllBase + env.dllSize < 2 ^ 64) (hPlace : (env.place d image).2 = some (base, sections))
    (hBelow : env.HasLdr d → base.toNat + imageSpan image ≤ d.ldrArenaNext.toNat) (hDeps : env.Adds (env.place d image).1 d')
    (hLast : env.Enlists (base.toNat, image.sizeOfImage.toNat) d' d'') : env.Adds d d'' := by
  obtain ⟨hBase, -⟩ := place_room hArena hPlace
  have hNext := placed_next hPlace
  obtain ⟨-, -, hPlaced⟩ := place_some hPlace
  have hSize := size_le_span image
  have hUp := hDeps.next
  have hRoom : env.Room (env.place d image).1 := by
    intro hLdr
    rw [hNext, ← hBase]
    rw [hPlaced] at hLdr ⊢
    exact hBelow hLdr
  refine ⟨?_, ?_, ?_, fun _ => hLast.room (hDeps.room hRoom), fun hOld => hLast.entered (hDeps.entered ?_)⟩
  · rw [hLast.peb, hDeps.peb, hPlaced]
  · rw [hLast.next]
    omega
  · obtain ⟨new, hNew, hStacked⟩ := hDeps.modules
    have hSame : (env.place d image).1.modules = d.modules := by rw [hPlaced]
    rw [hSame] at hNew
    rw [hLast.next]
    rcases hLast.modules with hNone | hOne
    · exact ⟨new, hNone.trans hNew, hStacked.mono (by omega) le_rfl⟩
    · refine ⟨new ++ [(base.toNat, image.sizeOfImage.toNat)], ?_, hStacked.snoc ?_ ?_ ?_⟩
      · rw [hOne, hNew, List.append_assoc]
      · dsimp only
        omega
      · dsimp only
        omega
      · exact hDeps.next
  · rw [hPlaced]
    exact hOld

theorem spot_pushed (name file : Text) (base : U64) (image : PeImage) :
    spot ⟨name, file, base, image.sizeOfImage.setWidth 64, entryOf base image, 1, 0, false, false⟩ = (base.toNat, image.sizeOfImage.toNat) := by
  unfold spot
  rw [BitVec.toNat_setWidth_of_le (by decide)]

theorem finish_enlists {file : Text} {r : Except EmuError (Option U64)}
    (hRoom : ∀ s₁, Fallible.each (env.bindImport base) image.imports s = some (.ok (), s₁) → env.HasRoom s₁ name file)
    (h : env.finish name file base image s = some (r, s')) : env.Enlists (base.toNat, image.sizeOfImage.toNat) s.dll s'.dll := by
  rcases bind_run h with ⟨done, s₁, hBound, hThen⟩ | ⟨e, hBound, -⟩
  · have hSettled : Settled s.dll s₁.dll := Settles.each (bindImport_settles base) image.imports s _ s₁ hBound
    refine hSettled.enlists (spot_pushed name file base image ▸ enlist_run rfl (hRoom s₁ hBound) ?_ hThen)
    refine .bind (.onLoader fun _ => ⟨rfl, rfl, rfl, rfl⟩) fun _ => ?_
    split
    · exact .bind (.onLoader fun _ => ⟨rfl, rfl, rfl, rfl⟩) fun _ => .pure _
    · exact .pure _
  · exact (Settles.each (bindImport_settles base) image.imports s _ s' hBound).enlists (.none _ _)

section Loads

variable {atPlace : DllState → PeImage → U64 → List Section → Prop} {s s' : DllState} {r : Except EmuError (Option U64)}

theorem depLoad_adds {fuel : Nat} {dep : Text} {r : Except EmuError Unit}
    (hLoad : ∀ s r s', env.LoadAlong env.Fits env.HasRoom fuel dep dep s → env.loadPlugin fuel dep dep s = some (r, s') → env.Adds s.dll s'.dll)
    (hAlong : (env.findDllFile dep dep).isSome = true → env.LoadAlong env.Fits env.HasRoom fuel dep dep s)
    (h : env.depLoad fuel dep s = some (r, s')) : env.Adds s.dll s'.dll := by
  unfold depLoad at h
  split at h
  · rename_i hFound
    rcases bind_run h with ⟨base, s₁, hFirst, hThen⟩ | ⟨e, hFirst, -⟩
    · cases hThen
      exact hLoad s _ s' (hAlong hFound) hFirst
    · exact hLoad s _ s' (hAlong hFound) hFirst
  · cases h
    exact .of_settled (.refl _)

theorem loadPlugin_adds (hArena : env.dllBase + env.dllSize < 2 ^ 64) {fuel : Nat} {path name : Text}
    (hAlong : env.LoadAlong env.Fits env.HasRoom fuel path name s) (h : env.loadPlugin fuel path name s = some (r, s')) :
    env.Adds s.dll s'.dll := by
  induction fuel generalizing path name s r s' with
  | zero => cases h
  | succ fuel ih =>
    rcases loadPlugin_cases h with ⟨-, -, -, n, rfl, hNext⟩ | ⟨hLate, file, image, base, sections, hOpen, hPlace, hInstall⟩
    · refine ⟨rfl, hNext.ge, ⟨[], (List.append_nil _).symm, .nil⟩, fun hRoom hLdr => ?_, fun hOld => hOld⟩
      rw [hNext]
      exact hRoom hLdr
    · have hNew : ¬s.dll.loading.contains name = true := fun hIn => hLate (.inl hIn)
      obtain ⟨hFits, hThen⟩ := hAlong file image base sections hNew hOpen hPlace
      suffices hBoth : ∃ d, env.Adds (env.place s.dll image).1 d ∧ env.Enlists (base.toNat, image.sizeOfImage.toNat) d s'.dll by
        obtain ⟨d, hDeps, hLast⟩ := hBoth
        exact placed_adds hArena hPlace hFits.below hDeps hLast
      rcases bind_run hInstall with ⟨done, s₁, hWritten, hRest⟩ | ⟨e, hWritten, -⟩
      · have hSettled : Settled (env.place s.dll image).1 s₁.dll := writeImage_settles _ _ _ _ _ _ hWritten
        obtain ⟨hDeps, hRecord⟩ := hThen s₁ hWritten
        have hRegistered : Settled s₁.dll (register name base image.exports s₁.dll) := ⟨rfl, rfl, rfl, rfl⟩
        have hEach : ∀ r₂ s₂, Fallible.each (env.depLoad fuel) (env.depNames (register name base image.exports s₁.dll) image.imports [])
            { s₁ with dll := register name base image.exports s₁.dll } = some (r₂, s₂) → env.Adds (env.place s.dll image).1 s₂.dll := by
          intro r₂ s₂ hRun
          refine (Adds.of_settled (hSettled.trans hRegistered)).trans ?_
          exact hDeps.keeps (R := fun s s' : DllState => env.Adds s.dll s'.dll) (fun s => .of_settled (.refl _)) (fun _ _ _ h h' => h.trans h')
            (fun dep s r s' hDep hLoad => depLoad_adds (fun s r s' => ih) hDep hLoad) hRun
        change (Fallible.each (env.depLoad fuel) (env.depNames (register name base image.exports s₁.dll) image.imports []) >>= fun _ =>
          env.finish name file base image) { s₁ with dll := register name base image.exports s₁.dll } = some (r, s') at hRest
        rcases bind_run hRest with ⟨done, s₃, hLoaded, hFinish⟩ | ⟨e, hLoaded, -⟩
        · exact ⟨s₃.dll, hEach _ _ hLoaded, finish_enlists (fun s₄ hBound => hRecord s₃ s₄ hLoaded hBound) hFinish⟩
        · exact ⟨s'.dll, hEach _ _ hLoaded, .none _ _⟩
      · exact ⟨_, .of_settled (writeImage_settles _ _ _ _ _ _ hWritten), .none _ _⟩

theorem loadCoreImage_adds (hArena : env.dllBase + env.dllSize < 2 ^ 64) {host name : Text} (hAlong : env.CoreAlong env.Fits env.HasRoom host name s)
    (h : env.loadCoreImage host name s = some (r, s')) : env.Adds s.dll s'.dll := by
  change (match (env.readFile host).bind env.images.parse with
    | none => (pure none : Load (Option U64))
    | some image => _) s = _ at h
  cases hOpen : (env.readFile host).bind env.images.parse with
  | none =>
    rw [hOpen] at h
    cases h
    exact .of_settled (.refl _)
  | some image =>
    rw [hOpen] at h
    cases hPlace : (env.place s.dll image).2 with
    | none =>
      dsimp only at h
      rw [hPlace] at h
      cases h
      obtain ⟨n, hSame, hNext⟩ := place_none hPlace
      refine ⟨by rw [hSame], hNext.ge, ⟨[], ?_, .nil⟩, fun hRoom hLdr => ?_, fun hOld => ?_⟩
      · rw [hSame, List.append_nil]
      · rw [hNext]
        rw [hSame] at hLdr ⊢
        exact hRoom hLdr
      · rw [hSame]
        exact hOld
    | some q =>
      obtain ⟨base, sections⟩ := q
      obtain ⟨hFits, hThen⟩ := hAlong image base sections hOpen hPlace
      dsimp only at h
      rw [hPlace] at h
      suffices hLast : env.Enlists (base.toNat, image.sizeOfImage.toNat) (env.place s.dll image).1 s'.dll from
        placed_adds hArena hPlace hFits.below (.of_settled (.refl _)) hLast
      change (writeImage base image.headers sections >>= fun _ => _) { s with dll := (env.place s.dll image).1 } = some (r, s') at h
      rcases bind_run h with ⟨done, s₁, hWritten, hRest⟩ | ⟨e, hWritten, -⟩
      · have hSettled : Settled (env.place s.dll image).1 s₁.dll := writeImage_settles _ _ _ _ _ _ hWritten
        have hRegistered : Settled s₁.dll
            { s₁.dll with exports := s₁.dll.exports.insert base image.exports, byName := s₁.dll.byName.insert name base } := ⟨rfl, rfl, rfl, rfl⟩
        change (Fallible.each (env.bindImport base) image.imports >>= fun _ => _)
          { s₁ with dll := { s₁.dll with exports := s₁.dll.exports.insert base image.exports, byName := s₁.dll.byName.insert name base } } =
            some (r, s') at hRest
        rcases bind_run hRest with ⟨done, s₂, hBound, hTail⟩ | ⟨e, hBound, -⟩
        · have hBinds : Settled _ s₂.dll := Settles.each (bindImport_settles base) image.imports _ _ s₂ hBound
          refine (hSettled.trans (hRegistered.trans hBinds)).enlists ?_
          refine spot_pushed name host base image ▸ enlist_run rfl (hThen s₁ s₂ hWritten hBound) ?_ hTail
          refine .bind ?_ fun _ => .pure _
          unfold queueEntry
          split
          · exact .onLoader fun _ => ⟨rfl, rfl, rfl, rfl⟩
          · exact .pure _
        · have hBinds : Settled _ s'.dll := Settles.each (bindImport_settles base) image.imports _ _ s' hBound
          exact (hSettled.trans (hRegistered.trans hBinds)).enlists (.none _ _)
      · exact Settled.enlists (writeImage_settles _ _ _ _ _ _ hWritten) (.none _ _)

end Loads

/-! ## Runs -/

structure Kept (env : DllEnv) (d : DllLoader) : Prop where
  modules : Stacked 0 (env.nextBase d) (d.modules.map spot)
  room : env.Room d
  entered : Entered d

theorem Kept.adds (h : env.Kept d) (hAdds : env.Adds d d') : env.Kept d' where
  modules := by
    obtain ⟨new, hNew, hStacked⟩ := hAdds.modules
    rw [hNew]
    exact h.modules.append hStacked (Nat.zero_le _) hAdds.next
  room := hAdds.room h.room
  entered := hAdds.entered h.entered

theorem Kept.apart (h : env.Kept d) : env.Apart d where
  modules := h.modules.apart
  below hLdr r hr := (h.modules.inside r hr).2.trans (h.room hLdr)
  entered _ := h.entered

section Reserves

variable {image : PeImage} {base : U64} {sections : List Section} {s s' : DllState}

theorem Fits.reserved (hArena : env.dllBase + env.dllSize < 2 ^ 64) (hKept : env.Kept s.dll)
    (hPlace : (env.place s.dll image).2 = some (base, sections)) (h : env.Fits s image base sections) : env.Reserved s image base sections := by
  obtain ⟨hBase, hTop⟩ := place_room hArena hPlace
  have hSize := size_le_span image
  have hEnd : base.toNat + image.sizeOfImage.toNat < 2 ^ 64 := by omega
  refine ⟨fun m hm => ?_, fun hLdr => ?_, writeImage_within hEnd h.headers h.sections, fun imp hImp => bindImport_within hEnd (h.imports imp hImp)⟩
  · rw [hBase]
    exact (hKept.modules.inside (spot m) (List.mem_map.mpr ⟨m, hm, rfl⟩)).2
  · have hBelow := h.below hLdr
    omega

theorem Fits.kept (hArena : env.dllBase + env.dllSize < 2 ^ 64) (hKept : env.Kept s.dll) (hPlace : (env.place s.dll image).2 = some (base, sections))
    (h : env.Fits s image base sections) : env.Kept (env.place s.dll image).1 := by
  obtain ⟨hBase, -⟩ := place_room hArena hPlace
  have hNext := placed_next hPlace
  obtain ⟨-, -, hPlaced⟩ := place_some hPlace
  refine ⟨?_, fun hLdr => ?_, ?_⟩
  · have hSame : (env.place s.dll image).1.modules = s.dll.modules := by rw [hPlaced]
    rw [hNext, hSame]
    exact hKept.modules.mono le_rfl (Nat.le_add_right _ _)
  · rw [hNext, ← hBase]
    rw [hPlaced] at hLdr ⊢
    exact h.below hLdr
  · rw [hPlaced]
    exact hKept.entered

theorem loadPlugin_reserved (hArena : env.dllBase + env.dllSize < 2 ^ 64) {fuel : Nat} {path name : Text} (hKept : env.Kept s.dll)
    (hAlong : env.LoadAlong env.Fits env.HasRoom fuel path name s) : env.LoadAlong env.Reserved (fun _ _ _ => True) fuel path name s := by
  induction fuel generalizing path name s with
  | zero => exact trivial
  | succ fuel ih =>
    intro file image base sections hNew hOpen hPlace
    obtain ⟨hFits, hThen⟩ := hAlong file image base sections hNew hOpen hPlace
    refine ⟨hFits.reserved hArena hKept hPlace, fun s₁ hWritten => ⟨?_, fun _ _ _ _ => trivial⟩⟩
    have hSettled : Settled (env.place s.dll image).1 s₁.dll := writeImage_settles _ _ _ _ _ _ hWritten
    have hRegistered : Settled s₁.dll (register name base image.exports s₁.dll) := ⟨rfl, rfl, rfl, rfl⟩
    have hHere := (hFits.kept hArena hKept hPlace).adds (.of_settled (hSettled.trans hRegistered))
    refine (hThen s₁ hWritten).1.imp (J := fun s : DllState => env.Kept s.dll) (fun dep s hs hDep hFound => ih hs (hDep hFound))
      (fun dep s s' hs hDep hRun => hs.adds ?_) hHere
    exact depLoad_adds (fun s r s' => loadPlugin_adds hArena) hDep hRun

theorem loadCoreImage_reserved (hArena : env.dllBase + env.dllSize < 2 ^ 64) {host name : Text} (hKept : env.Kept s.dll)
    (hAlong : env.CoreAlong env.Fits env.HasRoom host name s) : env.CoreAlong env.Reserved (fun _ _ _ => True) host name s := by
  intro image base sections hOpen hPlace
  obtain ⟨hFits, -⟩ := hAlong image base sections hOpen hPlace
  exact ⟨hFits.reserved hArena hKept hPlace, fun _ _ _ _ => trivial⟩

end Reserves

/-- A call that loads, or whatever the guest does to its memory in between. -/
inductive LoadCall where
  | loadLibrary (fuel : Nat) (path : Text)
  | loadCoreImage (host name : Text)
  | guest (mem : VirtualMemory)

namespace LoadCall

def run (env : DllEnv) (s : DllState) : LoadCall → Option DllState
  | loadLibrary fuel path => (env.loadLibrary fuel path s).map Prod.snd
  | loadCoreImage host name => (env.loadCoreImage host name s).map Prod.snd
  | guest mem => some { s with mem := mem }

def Along (env : DllEnv) (atPlace : DllState → PeImage → U64 → List Section → Prop) (atRecord : DllState → Text → Text → Prop) (s : DllState) :
    LoadCall → Prop
  | loadLibrary fuel path =>
    path ≠ [] → s.dll.byName.lookup (env.moduleName path) = none → ¬EMULATED.contains (env.moduleName path) = true →
      env.LoadAlong atPlace atRecord fuel path (env.moduleName path) { s with dll := { s.dll with pendingDllmain := [] } }
  | loadCoreImage host name => env.CoreAlong atPlace atRecord host name s
  | guest _ => True

def Safe (env : DllEnv) (s : DllState) (c : LoadCall) : Prop := c.Along env env.Fits env.HasRoom s

def Maps (env : DllEnv) (s : DllState) (c : LoadCall) : Prop := c.Along env env.Reserved (fun _ _ _ => True) s

end LoadCall

/-- No module is loaded, and the first image would lie below what has been taken from the high end. -/
structure Starts (env : DllEnv) (s : DllState) : Prop where
  arena : env.dllBase + env.dllSize < 2 ^ 64
  empty : s.dll.modules = []
  room : env.Room s.dll

inductive Run (env : DllEnv) (ok : DllState → LoadCall → Prop) : DllState → Prop where
  | new (s : DllState) (hStarts : env.Starts s) : Run env ok s
  | step {s : DllState} (c : LoadCall) (s' : DllState) : Run env ok s → ok s c → c.run env s = some s' → Run env ok s'

section Runs

variable {s s' : DllState} {ok : DllState → LoadCall → Prop}

theorem Run.arena (h : env.Run ok s) : env.dllBase + env.dllSize < 2 ^ 64 := by
  induction h with
  | new s hStarts => exact hStarts.arena
  | step c s' _ _ _ ih => exact ih

theorem Starts.kept (h : env.Starts s) : env.Kept s.dll where
  modules := by
    rw [h.empty]
    exact .nil
  room := h.room
  entered m hm := by
    rw [h.empty] at hm
    cases hm

theorem addRef_adds (name : Text) (d : DllLoader) : env.Adds d (addRef name d) := by
  unfold addRef
  split
  · exact .of_settled (.refl d)
  · refine ⟨rfl, le_rfl, ⟨[], ?_, .nil⟩, fun hRoom => hRoom, fun hOld m hm => ?_⟩
    · refine (map_spot_modify _ _ ?_).trans (List.append_nil _).symm
      exact fun _ => rfl
    · rcases mem_modify hm with hm | ⟨m', hm', rfl⟩
      · exact hOld m hm
      · exact hOld m' hm'

theorem systemHandle_settles (name : Text) : Settles (systemHandle name) := by
  refine .bind .get fun s => ?_
  dsimp only
  split
  · exact .pure _
  · exact .bind (.onLoader fun _ => ⟨rfl, rfl, rfl, rfl⟩) fun _ => .pure _

theorem loadLibrary_adds (hArena : env.dllBase + env.dllSize < 2 ^ 64) {fuel : Nat} {path : Text} {r : Except EmuError U64}
    (hSafe : (LoadCall.loadLibrary fuel path).Safe env s) (h : env.loadLibrary fuel path s = some (r, s')) : env.Adds s.dll s'.dll := by
  unfold loadLibrary at h
  split at h
  · cases h
    exact .of_settled (.refl _)
  · rename_i hPath
    change env.loadNamed fuel path (env.moduleName path) (s.dll.byName.lookup (env.moduleName path)) s = some (r, s') at h
    cases hUnknown : s.dll.byName.lookup (env.moduleName path) with
    | some base =>
      rw [hUnknown] at h
      cases h
      exact addRef_adds _ _
    | none =>
      rw [hUnknown] at h
      change (if EMULATED.contains (env.moduleName path) then systemHandle (env.moduleName path) else _) s = some (r, s') at h
      split at h
      · exact .of_settled (systemHandle_settles _ s r s' h)
      · rename_i hNot
        change ((env.loadPlugin fuel path (env.moduleName path) { s with dll := { s.dll with pendingDllmain := [] } }).map _) = some (r, s') at h
        obtain ⟨p, hLoad, hEnd⟩ := Option.map_eq_some_iff.mp h
        obtain ⟨r₁, s₁⟩ := p
        cases hEnd
        have hCleared : Settled s.dll { s.dll with pendingDllmain := [] } := ⟨rfl, rfl, rfl, rfl⟩
        exact (Adds.of_settled hCleared).trans (loadPlugin_adds hArena (hSafe hPath hUnknown hNot) hLoad)

theorem Run.kept (h : env.Run (LoadCall.Safe env) s) : env.Kept s.dll := by
  have hArena := h.arena
  induction h with
  | new s hStarts => exact hStarts.kept
  | step c s' hRun hSafe hStep ih =>
    refine ih.adds ?_
    cases c with
    | loadLibrary fuel path =>
      obtain ⟨p, hLoad, rfl⟩ := Option.map_eq_some_iff.mp hStep
      exact loadLibrary_adds hArena hSafe hLoad
    | loadCoreImage host name =>
      obtain ⟨p, hLoad, rfl⟩ := Option.map_eq_some_iff.mp hStep
      exact loadCoreImage_adds hArena hSafe hLoad
    | guest mem =>
      cases hStep
      exact .of_settled (.refl _)

/-- After every run of safe loads the modules lie apart and below the records; and the images of the next safe load
are mapped within ranges of their own. -/
theorem Run.images_apart (h : env.Run (LoadCall.Safe env) s) : env.Apart s.dll ∧ ∀ c : LoadCall, c.Safe env s → c.Maps env s := by
  have hArena := h.arena
  have hKept := h.kept
  refine ⟨hKept.apart, fun c hSafe => ?_⟩
  cases c with
  | loadLibrary fuel path =>
    intro hPath hUnknown hNot
    have hCleared : Settled s.dll { s.dll with pendingDllmain := [] } := ⟨rfl, rfl, rfl, rfl⟩
    exact loadPlugin_reserved hArena (hKept.adds (.of_settled hCleared)) (hSafe hPath hUnknown hNot)
  | loadCoreImage host name => exact loadCoreImage_reserved hArena hKept hSafe
  | guest mem => exact trivial

end Runs

/-! ## Three images -/

theorem hasRoom_of_settled {fullPath : Text} (h : Settled d s.dll) (hRoom : env.nextBase d + env.recordSize name fullPath ≤ d.ldrArenaNext.toNat) :
    env.HasRoom s name fullPath := by
  intro _
  rw [h.next, h.ldr]
  exact hRoom

theorem loadAlong_alone {atPlace : DllState → PeImage → U64 → List Section → Prop} {fuel : Nat} {path file : Text}
    (hOpen : env.openImage path name = some (file, image)) (hNone : image.imports = []) (hPlace : (env.place s.dll image).2 = some (base, sections))
    (hAt : atPlace s image base sections)
    (hRoom : env.nextBase (env.place s.dll image).1 + env.recordSize name file ≤ (env.place s.dll image).1.ldrArenaNext.toNat) :
    env.LoadAlong atPlace env.HasRoom (fuel + 1) path name s := by
  intro file' image' base' sections' _ hOpen' hPlace'
  obtain ⟨rfl, rfl⟩ := Prod.mk.inj (Option.some.inj (hOpen.symm.trans hOpen'))
  obtain ⟨rfl, rfl⟩ := Prod.mk.inj (Option.some.inj (hPlace.symm.trans hPlace'))
  refine ⟨hAt, fun s₁ hWritten => ?_⟩
  have hSettled : Settled (env.place s.dll image).1 s₁.dll := writeImage_settles _ _ _ _ _ _ hWritten
  dsimp only
  rw [hNone]
  refine ⟨trivial, fun s₃ s₄ hLoaded hBound => ?_⟩
  cases hLoaded
  cases hBound
  exact hasRoom_of_settled (hSettled.trans ⟨rfl, rfl, rfl, rfl⟩) hRoom

def oneSection : List U8 := Loader.smallFile [] 0x1000 [1, 2, 3]

def oneImage : PeImage := Loader.PeImage.ofFile oneSection

theorem image_apart : ∃ s, (pebEnv oneSection).Run (LoadCall.Safe (pebEnv oneSection)) s ∧ s.dll.modules.length = 1 ∧ (pebEnv oneSection).Apart s.dll := by
  have hStarts : (pebEnv oneSection).Starts pebStarted := ⟨by decide, by decide +kernel, fun _ => by decide +kernel⟩
  have hSafe : (LoadCall.loadLibrary 4 "x.dll".toList).Safe (pebEnv oneSection) pebStarted := by
    intro _ _ _
    have hOpen : (pebEnv oneSection).openImage "x.dll".toList ((pebEnv oneSection).moduleName "x.dll".toList) =
        some ("C/x.dll".toList, oneImage) := by decide +kernel
    have hPlace : ((pebEnv oneSection).place { pebStarted.dll with pendingDllmain := [] } oneImage).2 = some (0x20000000, oneImage.sections) := by
      decide +kernel
    have hSections : (oneImage.sections.all fun sec =>
        decide (sec.data ≠ [] → sec.rva.toNat + sec.data.length ≤ oneImage.sizeOfImage.toNat)) = true := by decide +kernel
    have hNone : oneImage.imports = [] := by decide +kernel
    refine loadAlong_alone hOpen hNone hPlace ⟨by decide +kernel, fun sec hSec => ?_, fun imp hImp => ?_, fun _ => by decide +kernel⟩
      (by decide +kernel)
    · exact of_decide_eq_true (List.all_eq_true.mp hSections sec hSec)
    · rw [hNone] at hImp
      cases hImp
  have hLoads : (((LoadCall.loadLibrary 4 "x.dll".toList).run (pebEnv oneSection) pebStarted).map fun s => s.dll.modules.length) = some 1 := by
    decide +kernel
  obtain ⟨s, hRun, hOne⟩ := Option.map_eq_some_iff.mp hLoads
  have hReached := (Run.new pebStarted hStarts).step (.loadLibrary 4 "x.dll".toList) s hSafe hRun
  exact ⟨s, hReached, hOne, hReached.images_apart.1⟩

def wideSection : List U8 := (oneSection.set 145 0).set 147 4

def shortSection : List U8 := oneSection.set 145 0x10

def shortImage : PeImage := Loader.PeImage.ofFile shortSection

theorem pebState_wellFormed : VirtualMemory.WellFormed pebState.mem := by
  unfold pebState
  dsimp only
  cases hDlls : VirtualMemory.new.map true ⟨"dlls", 0x20000000, 0x4000000, Perm.RWX⟩ with
  | error e => exact VirtualMemory.wellFormed_new
  | ok mem =>
    obtain ⟨-, _, hInsert⟩ := VirtualMemory.map_ok hDlls
    change VirtualMemory.WellFormed ((mem.map true ⟨"peb", 0x7FFD2000, 0x1000, Perm.RW⟩).toOption.getD .new)
    cases hPeb : mem.map true ⟨"peb", 0x7FFD2000, 0x1000, Perm.RW⟩ with
    | error e => exact VirtualMemory.wellFormed_new
    | ok mem' =>
      obtain ⟨-, _, hInsert'⟩ := VirtualMemory.map_ok hPeb
      exact (VirtualMemory.wellFormed_new.insert hInsert).insert hInsert'

/-- The one lies under the records, and of the other the section lies behind it. -/
theorem image_overlaps :
    (∃ s, (pebEnv wideSection).Run (fun _ _ => True) s ∧ ¬(pebEnv wideSection).Apart s.dll) ∧
      (pebEnv shortSection).Run (fun _ _ => True) pebState ∧ ¬(LoadCall.loadLibrary 4 "x.dll".toList).Maps (pebEnv shortSection) pebState := by
  refine ⟨?_, .new pebState ⟨by decide, rfl, fun hLdr => absurd rfl hLdr.2⟩, fun hMaps => ?_⟩
  · have hStarts : (pebEnv wideSection).Starts pebStarted := ⟨by decide, by decide +kernel, fun _ => by decide +kernel⟩
    have hLoads : (((LoadCall.loadLibrary 4 "x.dll".toList).run (pebEnv wideSection) pebStarted).map fun s =>
        (s.dll.modules.map spot, decide (s.dll.ldrArenaNext.toNat < 0x24000000), decide (s.dll.pebLdrData ≠ 0))) =
          some ([(0x20000000, 0x4000000)], true, true) := by decide +kernel
    obtain ⟨s, hRun, hEnd⟩ := Option.map_eq_some_iff.mp hLoads
    obtain ⟨hModules, hRest⟩ := Prod.mk.inj hEnd
    obtain ⟨hLow, hLdr⟩ := Prod.mk.inj hRest
    refine ⟨s, (Run.new pebStarted hStarts).step (.loadLibrary 4 "x.dll".toList) s trivial hRun, fun hApart => ?_⟩
    have hBelow := hApart.below ⟨by decide, of_decide_eq_true hLdr⟩ (0x20000000, 0x4000000) (by rw [hModules]; exact List.mem_singleton_self _)
    have hUnder := of_decide_eq_true hLow
    dsimp only at hBelow
    omega
  · have hUnknown : pebState.dll.byName.lookup ((pebEnv shortSection).moduleName "x.dll".toList) = none := by decide
    have hAlong := hMaps (by decide) hUnknown (by decide)
    have hOpen : (pebEnv shortSection).openImage "x.dll".toList ((pebEnv shortSection).moduleName "x.dll".toList) =
        some ("C/x.dll".toList, shortImage) := by decide +kernel
    have hPlace : ((pebEnv shortSection).place { pebState.dll with pendingDllmain := [] } shortImage).2 = some (0x20000000, shortImage.sections) := by
      decide +kernel
    have hMapped : ((writeImage 0x20000000 shortImage.headers shortImage.sections pebState).map fun w => w.2.mem.peek 0x20001000) =
        some (some 1) := by decide +kernel
    obtain ⟨⟨r, s⟩, hWrite, hOne⟩ := Option.map_eq_some_iff.mp hMapped
    have hParts := (hAlong _ _ _ _ (by decide) hOpen hPlace).1.parts
    have hSame := (hParts pebState r s hWrite).bytes pebState_wellFormed 0x20001000 (by decide +kernel)
    rw [show s.mem.peek 0x20001000 = some 1 from hOne] at hSame
    exact absurd hSame (by decide)

end DllEnv

end Exemu.Os
