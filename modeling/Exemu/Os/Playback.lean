import Exemu.Memory.Ranges
import Exemu.Os.Audio
import Exemu.Os.Process

/-! # Frames played and calls refused

The position of a stream counts the frames of the calls that gave its buffer back, as long as none
of them fails behind its update; a call that is refused leaves the streams and the mappings alone,
as long as it is not refused behind its own.
-/
namespace Exemu.Os

namespace Audio

open Fallible

variable {s s' : State}

/-! ## What a call reads and writes -/

def State.withMem (s : State) (mem : VirtualMemory) : State := { s with sys := { s.sys with mem := mem } }

section Rules

variable {addr v args : U64} {n : Nat} {hr : U32}

theorem ends_load {Q : Result U64 → State → Prop} : Ends (load addr n) s Q ↔ Q (s.sys.mem.readUint addr n) s := by
  cases h : s.sys.mem.readUint addr n with
  | ok v => exact ends_of_run (p := (.ok v, s)) (by rw [load, Fallible.step, h]; rfl)
  | error e => exact ends_of_run (p := (.error e, s)) (by rw [load, Fallible.step, h]; rfl)

theorem ends_store {Q : Result Unit → State → Prop} : Ends (store addr n v) s Q ↔
    (∀ mem, s.sys.mem.writeUint addr n v = .ok mem → Q (.ok ()) (s.withMem mem)) ∧
      ∀ e, s.sys.mem.writeUint addr n v = .error e → Q (.error e) s := by
  cases h : s.sys.mem.writeUint addr n v with
  | ok mem =>
    rw [ends_of_run (p := (.ok (), s.withMem mem)) (by rw [store, Fallible.step, h]; rfl)]
    exact ⟨fun hQ => ⟨fun _ hEq => Except.ok.inj hEq ▸ hQ, fun _ hEq => by cases hEq⟩, fun hQ => hQ.1 mem rfl⟩
  | error e =>
    rw [ends_of_run (p := (.error e, s)) (by rw [store, Fallible.step, h]; rfl)]
    exact ⟨fun hQ => ⟨fun _ hEq => by (cases hEq), fun _ hEq => Except.error.inj hEq ▸ hQ⟩, fun hQ => hQ.2 e rfl⟩

theorem ends_readU32 {Q : Result U32 → State → Prop} :
    Ends (readU32 addr) s Q ↔ Q ((s.sys.mem.readUint addr 4).map fun v => v.setWidth 32) s := by
  unfold readU32
  rw [ends_bind, ends_load]
  cases s.sys.mem.readUint addr 4 with
  | ok v => exact ends_pure _
  | error e => exact Iff.rfl

theorem ends_reply {Q : Result Reply → State → Prop} : Ends (reply addr hr) s Q ↔
    (∀ mem, s.sys.mem.writeUint addr 4 (hr.setWidth 64) = .ok mem → Q (.ok ⟨S_OK, hr⟩) (s.withMem mem)) ∧
      ∀ e, s.sys.mem.writeUint addr 4 (hr.setWidth 64) = .error e → Q (.error e) s := by
  unfold reply
  rw [ends_bind, ends_store]
  exact and_congr (forall₂_congr fun _ _ => ends_pure _) Iff.rfl

theorem ends_streamOf {Q : Result (Option Stream) → State → Prop} {handle : U64} :
    Ends (streamOf handle) s Q ↔ Q (.ok (s.audio.streams.lookup handle.toNat)) s := ends_of_run (p := (.ok _, s)) rfl

end Rules

/-! ## What a call is answerable for -/

def Same (s s' : State) : Prop := s'.audio = s.audio ∧ s'.sys.mem.layout = s.sys.mem.layout

theorem Same.refl (s : State) : Same s s := ⟨rfl, rfl⟩

theorem Same.trans {s₁ s₂ s₃ : State} (h : Same s₁ s₂) (h' : Same s₂ s₃) : Same s₁ s₃ := ⟨h'.1.trans h.1, h'.2.trans h.2⟩

theorem same_withMem {addr v : U64} {n : Nat} {mem : VirtualMemory} (h : s.sys.mem.writeUint addr n v = .ok mem) :
    Same s (s.withMem mem) := ⟨rfl, VirtualMemory.writeUint_layout h⟩

def Reply.isError (r : Reply) : Bool := r.status ≠ 0 || decide (0x80000000 ≤ r.result)

inductive Event where
  | released (handle : Nat) (written : U32)
  | reset (handle : Nat)
  | other
deriving DecidableEq

def argument (s : State) (addr : U64) (n : Nat) : U64 :=
  match s.sys.mem.readUint addr n with
  | .ok v => v
  | .error _ => 0

def Call.event (c : Call) (s : State) (r : Result Reply) : Event :=
  match c, r with
  | .releaseRenderBuffer args, .ok reply =>
    if reply.isError then .other else .released (argument s args 8).toNat ((argument s (args + 0x08) 4).setWidth 32)
  | .streamOnly args .CODE_RESET, .ok reply => if reply.isError then .other else .reset (argument s args 8).toNat
  | _, _ => .other

def framesSince (handle : Nat) : List Event → Nat
  | [] => 0
  | .released h n :: es => if h = handle then n.toNat + framesSince handle es else framesSince handle es
  | .reset h :: es => if h = handle then 0 else framesSince handle es
  | .other :: es => framesSince handle es

def Counted (es : List Event) (s : State) : Prop :=
  ∀ h st, s.audio.streams.lookup h = some st → st.position.toNat = framesSince h es

def Unused (es : List Event) (s : State) : Prop :=
  ∀ h, s.audio.nextHandle < h → s.audio.streams.lookup h = none ∧ framesSince h es = 0

structure Tallied (es : List Event) (s : State) : Prop where
  counted : Counted es s
  unused : Unused es s

/-- A call that is refused has left everything alone, and the numbers are still right. -/
def Good (c : Call) (es : List Event) (s : State) (r : Result Reply) (s' : State) : Prop :=
  (∀ reply, r = .ok reply → reply.isError = true → Same s s') ∧ Tallied (c.event s r :: es) s'

section Good

variable {c : Call} {es : List Event} {r : Result Reply}

theorem tallied_of_audio (h : Tallied es s) (hAudio : s'.audio = s.audio) (hEvent : c.event s r = .other) :
    Tallied (c.event s r :: es) s' := by
  rw [hEvent]
  constructor
  · intro h' st hst
    rw [hAudio] at hst
    exact h.counted h' st hst
  · intro h' hLess
    rw [hAudio] at hLess ⊢
    exact h.unused h' hLess

theorem good_of_same (hTally : Tallied es s) (h : Same s s') (hEvent : c.event s r = .other) : Good c es s r s' :=
  ⟨fun _ _ _ => h, tallied_of_audio hTally h.1 hEvent⟩

theorem good_of_answer (hOk : ∀ reply, r = .ok reply → reply.isError = false) (hTally : Tallied (c.event s r :: es) s') :
    Good c es s r s' := by
  refine ⟨fun reply hr hErr => ?_, hTally⟩
  rw [hOk reply hr] at hErr
  cases hErr

theorem event_error (e : EmuError) : c.event s (.error e) = .other := by
  cases c <;> try rfl
  rename_i code
  cases code <;> rfl

theorem event_refused {reply : Reply} (h : reply.isError = true) : c.event s (.ok reply) = .other := by
  cases c with
  | releaseRenderBuffer args => exact if_pos h
  | streamOnly args code =>
    cases code with
    | CODE_RESET => exact if_pos h
    | _ => rfl
  | _ => rfl

theorem good_of_fault (hTally : Tallied es s) (e : EmuError) : Good c es s (.error e) s :=
  good_of_same hTally (Same.refl s) (event_error e)

theorem ends_refuse {addr : U64} {hr : U32} {s₁ : State} (hTally : Tallied es s) (hSame : Same s s₁) (hErr : 0x80000000 ≤ hr) :
    Ends (reply addr hr) s₁ (Good c es s) := by
  have hRefused : (Reply.mk S_OK hr).isError = true := by
    unfold Reply.isError
    simp only [Bool.or_eq_true, decide_eq_true_eq]
    exact .inr hErr
  exact ends_reply.mpr ⟨fun mem hWrite => good_of_same hTally (hSame.trans (same_withMem hWrite)) (event_refused hRefused),
    fun e _ => good_of_same hTally hSame (event_error e)⟩

theorem tallied_set {es' : List Event} {h : Nat} {st st' : Stream} (hTally : Tallied es s) (hStream : s.audio.streams.lookup h = some st)
    (hAudio : s'.audio = { s.audio with streams := s.audio.streams.insert h st' }) (hPos : st'.position.toNat = framesSince h es')
    (hOthers : ∀ h', h' ≠ h → framesSince h' es' = framesSince h' es) : Tallied es' s' := by
  constructor
  · intro h' st'' hst
    rw [hAudio] at hst
    by_cases hEq : h' = h
    · rw [hEq, AList.lookup_insert] at hst
      cases hst
      rw [hEq, hPos]
    · rw [AList.lookup_insert_ne hEq] at hst
      rw [hOthers h' hEq]
      exact hTally.counted h' st'' hst
  · intro h' hLess
    rw [hAudio] at hLess ⊢
    obtain ⟨hNone, hZero⟩ := hTally.unused h' hLess
    have hNe : h' ≠ h := by
      rintro rfl
      rw [hStream] at hNone
      cases hNone
    rw [AList.lookup_insert_ne hNe, hOthers h' hNe]
    exact ⟨hNone, hZero⟩

end Good

def noted (addr : U64) (op : SinkOp) : Act Reply := do
  tell op
  reply addr S_OK

theorem ends_noted {addr : U64} {op : SinkOp} {Q : Result Reply → State → Prop}
    (hFault : ∀ e (s' : State), s'.audio = s.audio → (∀ mem, s.sys.mem.writeUint addr 4 (S_OK.setWidth 64) ≠ .ok mem) → Q (.error e) s')
    (hDone : ∀ s' : State, s'.audio = s.audio → (∃ mem, s.sys.mem.writeUint addr 4 (S_OK.setWidth 64) = .ok mem) →
      Q (.ok ⟨S_OK, S_OK⟩) s') : Ends (noted addr op) s Q := by
  unfold noted
  rw [ends_bind]
  refine (ends_modify _).mpr ?_
  rw [then_ok, ends_reply]
  refine ⟨fun mem hWrite => hDone _ rfl ⟨mem, hWrite⟩, fun e hErr => hFault e _ rfl fun mem hOk => ?_⟩
  cases hOk.symm.trans hErr

/-! ## A buffer is asked for -/

def GetsNowhere (s : State) (args : U64) : Prop :=
  ∃ handle frames st mem, s.sys.mem.readUint args 8 = .ok handle ∧
    (s.sys.mem.readUint (args + 0x08) 4).map (fun v => v.setWidth 32) = .ok frames ∧
    s.audio.streams.lookup handle.toNat = some st ∧ st.held = none ∧ frames ≤ st.capacity ∧
    s.sys.mem.readUint (args + 0x10) 8 = .ok 0 ∧ s.sys.mem.writeUint (args + 0x0c) 4 (E_POINTER.setWidth 64) = .ok mem

def withStream (s : State) (handle : U64) (st : Stream) : State :=
  { s with audio := { s.audio with streams := s.audio.streams.insert handle.toNat st } }

section Get

variable {args : U64} {es : List Event}

theorem getRenderBuffer_good (hTally : Tallied es s) (h : ¬GetsNowhere s args) :
    Ends (getRenderBuffer args) s (Good (.getRenderBuffer args) es s) := by
  unfold getRenderBuffer
  rw [ends_bind, ends_load]
  cases hHandle : s.sys.mem.readUint args 8 with
  | error e => exact good_of_fault hTally e
  | ok handle =>
    show Ends _ _ _
    rw [ends_bind, ends_readU32]
    cases hFrames : (s.sys.mem.readUint (args + 0x08) 4).map (fun v => v.setWidth 32) with
    | error e => exact good_of_fault hTally e
    | ok frames =>
      show Ends _ _ _
      rw [ends_bind, ends_streamOf]
      cases hStream : s.audio.streams.lookup handle.toNat with
      | none => exact ends_refuse hTally (Same.refl s) (by decide)
      | some st =>
        show Ends (if st.held.isSome then _ else _) _ _
        split
        · exact ends_refuse hTally (Same.refl s) (by decide)
        rename_i hFree
        split
        · exact ends_refuse hTally (Same.refl s) (by decide)
        rename_i hRoom
        -- from here on the stream holds the frames, so no refusal may follow
        have hSet : ∀ {mem : VirtualMemory} {r : Result Reply}, (∀ reply, r = .ok reply → reply.isError = false) →
            Good (.getRenderBuffer args) es s r ((withStream s handle { st with held := some frames }).withMem mem) := by
          intro mem r hOk
          have hEvent : (Call.getRenderBuffer args).event s r = .other := by cases r <;> rfl
          exact good_of_answer hOk (tallied_set hTally hStream rfl (hEvent.symm ▸ hTally.counted _ st hStream) (hEvent.symm ▸ fun _ _ => rfl))
        rw [ends_bind]
        refine (ends_modify _).mpr ?_
        show Ends _ _ _
        rw [ends_bind, ends_load]
        show Then _ _ (s.sys.mem.readUint (args + 0x10) 8) _
        cases hPtr : s.sys.mem.readUint (args + 0x10) 8 with
        | error e => exact @hSet s.sys.mem _ fun _ hr => by cases hr
        | ok ptr =>
          show Ends (if ptr = 0 then _ else _) _ _
          split
          · rename_i hNull
            refine ends_reply.mpr ⟨fun mem hWrite => absurd ?_ h, fun e _ => @hSet s.sys.mem _ fun _ hr => by (cases hr)⟩
            have hNone : st.held = none := Option.not_isSome_iff_eq_none.mp hFree
            exact ⟨handle, frames, st, mem, hHandle, hFrames, hStream, hNone, BitVec.not_lt.mp hRoom, hNull ▸ hPtr, hWrite⟩
          · rw [ends_bind, ends_store]
            refine ⟨fun mem _ => ends_reply.mpr ⟨fun mem' _ => ?_, fun e _ => ?_⟩, fun e _ => @hSet s.sys.mem _ fun _ hr => by (cases hr)⟩
            · exact @hSet mem' _ fun reply hr => by
                cases hr
                rfl
            · exact @hSet mem _ fun _ hr => by cases hr

theorem getRenderBuffer_stuck (h : GetsNowhere s args) :
    Ends (getRenderBuffer args) s fun r s' => r = .ok ⟨S_OK, E_POINTER⟩ ∧ s'.audio ≠ s.audio := by
  obtain ⟨handle, frames, st, mem, hHandle, hFrames, hStream, hNone, hRoom, hPtr, hWrite⟩ := h
  have hChanged : (withStream s handle { st with held := some frames }).audio ≠ s.audio := by
    intro hEq
    have hLookup := congrArg (fun a => a.streams.lookup handle.toNat) hEq
    have hNew : (withStream s handle { st with held := some frames }).audio.streams.lookup handle.toNat =
        some { st with held := some frames } := AList.lookup_insert _
    rw [hNew, hStream] at hLookup
    have hHeld := congrArg Stream.held (Option.some.inj hLookup)
    rw [hNone] at hHeld
    cases hHeld
  unfold getRenderBuffer
  rw [ends_bind, ends_load, hHandle, then_ok, ends_bind, ends_readU32, hFrames]
  rw [then_ok, ends_bind, ends_streamOf, hStream, then_ok]
  dsimp only
  rw [if_neg (by rw [hNone]; decide), if_neg (BitVec.not_lt.mpr hRoom), ends_bind]
  refine (ends_modify _).mpr ?_
  rw [then_ok, ends_bind, ends_load]
  show Then _ _ (s.sys.mem.readUint (args + 0x10) 8) _
  rw [hPtr, then_ok, if_pos rfl, ends_reply]
  refine ⟨fun mem' _ => ⟨rfl, hChanged⟩, fun e hErr => ?_⟩
  have hBoth := hWrite.symm.trans hErr
  cases hBoth

end Get

/-! ## A buffer is given back -/

structure Gives (s : State) (args handle : U64) (written flags : U32) (st : Stream) (held : U32) : Prop where
  handleRead : s.sys.mem.readUint args 8 = .ok handle
  writtenRead : (s.sys.mem.readUint (args + 0x08) 4).map (fun v => v.setWidth 32) = .ok written
  flagsRead : (s.sys.mem.readUint (args + 0x0c) 4).map (fun v => v.setWidth 32) = .ok flags
  streamFound : s.audio.streams.lookup handle.toNat = some st
  isHeld : st.held = some held
  fits : written ≤ held

/-- The position has room for the frames, the buffer can be read and the result written. -/
structure Plays (s : State) (args : U64) (written flags : U32) (st : Stream) : Prop where
  room : st.position.toNat + written.toNat < 2 ^ 64
  buffer : ∃ pcm, pcmOf s.sys.mem flags st.buffer (written.toNat * MIX_FRAME_BYTES.toNat) = .ok pcm
  result : ∃ mem, s.sys.mem.writeUint (args + 0x10) 4 (S_OK.setWidth 64) = .ok mem

def GivesSafely (s : State) (args : U64) : Prop :=
  ∀ handle written flags st held, Gives s args handle written flags st held → written ≠ 0 → Plays s args written flags st

section Release

variable {args : U64} {es : List Event}

theorem ends_readPcm {flags : U32} {base : U64} {n : Nat} {Q : Result (List U8) → State → Prop} :
    Ends (readPcm flags base n) s Q ↔ Q (pcmOf s.sys.mem flags base n) s := by
  cases h : pcmOf s.sys.mem flags base n with
  | ok pcm => exact ends_of_run (p := (.ok pcm, s)) (by rw [readPcm, Fallible.step, h]; rfl)
  | error e => exact ends_of_run (p := (.error e, s)) (by rw [readPcm, Fallible.step, h]; rfl)

def givenBack (s : State) (handle : U64) (st : Stream) (written : U32) : State :=
  withStream s handle { st with held := none, position := st.position + written.setWidth 64 }

def play (args : U64) (flags : U32) (base : U64) (n : Nat) : Act Reply := do
  let pcm ← readPcm flags base n
  noted (args + 0x10) (.write pcm)

theorem ends_play {flags : U32} {base : U64} {n : Nat} {Q : Result Reply → State → Prop}
    (hFault : ∀ e (s' : State), s'.audio = s.audio →
      (∀ pcm mem, pcmOf s.sys.mem flags base n = .ok pcm → s.sys.mem.writeUint (args + 0x10) 4 (S_OK.setWidth 64) ≠ .ok mem) → Q (.error e) s')
    (hDone : ∀ s' : State, s'.audio = s.audio →
      (∃ pcm, pcmOf s.sys.mem flags base n = .ok pcm) → (∃ mem, s.sys.mem.writeUint (args + 0x10) 4 (S_OK.setWidth 64) = .ok mem) →
      Q (.ok ⟨S_OK, S_OK⟩) s') : Ends (play args flags base n) s Q := by
  unfold play
  rw [ends_bind, ends_readPcm]
  cases hPcm : pcmOf s.sys.mem flags base n with
  | error e => exact hFault e s rfl fun pcm _ hOk => by rw [hOk] at hPcm; cases hPcm
  | ok pcm =>
    rw [then_ok]
    exact ends_noted (fun e s' hAudio hFails => hFault e s' hAudio fun _ mem _ => hFails mem) fun s' hAudio hWrite =>
      hDone s' hAudio ⟨pcm, hPcm⟩ hWrite

theorem releaseRenderBuffer_gives {Q : Result Reply → State → Prop} {handle : U64} {written flags : U32} {st : Stream} {held : U32}
    (h : Gives s args handle written flags st held) : Ends (releaseRenderBuffer args) s Q ↔
      Ends (play args flags st.buffer (written.toNat * MIX_FRAME_BYTES.toNat)) (givenBack s handle st written) Q := by
  unfold releaseRenderBuffer
  rw [ends_bind, ends_load, h.handleRead, then_ok, ends_bind, ends_readU32, h.writtenRead, then_ok, ends_bind, ends_readU32, h.flagsRead,
    then_ok, ends_bind, ends_streamOf, h.streamFound, then_ok]
  dsimp only
  rw [h.isHeld]
  dsimp only
  rw [if_neg (BitVec.not_lt.mpr h.fits), ends_bind]
  exact ends_modify _

theorem event_given {handle : U64} {written flags : U32} {st : Stream} {held : U32} (h : Gives s args handle written flags st held) :
    (Call.releaseRenderBuffer args).event s (.ok ⟨S_OK, S_OK⟩) = .released handle.toNat written := by
  have hHandle : argument s args 8 = handle := by rw [argument, h.handleRead]
  have hWritten : (argument s (args + 0x08) 4).setWidth 32 = written := by
    have hRead := h.writtenRead
    unfold argument
    cases hValue : s.sys.mem.readUint (args + 0x08) 4 with
    | ok v =>
      rw [hValue] at hRead
      exact Except.ok.inj hRead
    | error e =>
      rw [hValue] at hRead
      cases hRead
  rw [← hHandle, ← hWritten]
  rfl

theorem releaseRenderBuffer_good (hTally : Tallied es s) (hSafe : GivesSafely s args) :
    Ends (releaseRenderBuffer args) s (Good (.releaseRenderBuffer args) es s) := by
  by_cases hGives : ∃ handle written flags st held, Gives s args handle written flags st held
  · obtain ⟨handle, written, flags, st, held, h⟩ := hGives
    have hCount := hTally.counted _ st h.streamFound
    rw [releaseRenderBuffer_gives h]
    refine ends_play (fun e s' hAudio hFault => ?_) fun s' hAudio _ _ => ?_
    · -- only a call that gives nothing back may fail here
      have hZero : written = 0 := by
        by_contra hSome
        have hPlays := hSafe _ _ _ _ _ h hSome
        obtain ⟨pcm, hPcm⟩ := hPlays.buffer
        obtain ⟨mem, hWrite⟩ := hPlays.result
        exact hFault pcm mem hPcm hWrite
      refine good_of_answer (fun _ hr => by cases hr) (tallied_set hTally h.streamFound hAudio ?_ fun _ _ => rfl)
      rw [event_error, hZero]
      show (st.position + 0#64).toNat = framesSince handle.toNat es
      rw [BitVec.add_zero, hCount]
    · have hRoom : st.position.toNat + written.toNat < 2 ^ 64 := by
        by_cases hZero : written = 0
        · rw [hZero]
          exact st.position.isLt
        · exact (hSafe _ _ _ _ _ h hZero).room
      refine good_of_answer (fun reply hr => by cases hr; rfl) (tallied_set hTally h.streamFound hAudio ?_ fun h' hNe => ?_)
      · rw [event_given h]
        show (st.position + written.setWidth 64).toNat = if handle.toNat = handle.toNat then _ else _
        rw [if_pos rfl, BitVec.toNat_add, BitVec.toNat_setWidth, ← hCount]
        omega
      · rw [event_given h]
        exact if_neg hNe.symm
  · unfold releaseRenderBuffer
    rw [ends_bind, ends_load]
    cases hHandle : s.sys.mem.readUint args 8 with
    | error e => exact good_of_fault hTally e
    | ok handle =>
      rw [then_ok, ends_bind, ends_readU32]
      cases hWritten : (s.sys.mem.readUint (args + 0x08) 4).map (fun v => v.setWidth 32) with
      | error e => exact good_of_fault hTally e
      | ok written =>
        rw [then_ok, ends_bind, ends_readU32]
        cases hFlags : (s.sys.mem.readUint (args + 0x0c) 4).map (fun v => v.setWidth 32) with
        | error e => exact good_of_fault hTally e
        | ok flags =>
          rw [then_ok, ends_bind, ends_streamOf, then_ok]
          cases hStream : s.audio.streams.lookup handle.toNat with
          | none => exact ends_refuse hTally (Same.refl s) (by decide)
          | some st =>
            dsimp only
            cases hHeld : st.held with
            | none => exact ends_refuse hTally (Same.refl s) (by decide)
            | some held =>
              dsimp only
              split
              · exact ends_refuse hTally (Same.refl s) (by decide)
              · rename_i hFits
                exact absurd ⟨handle, written, flags, st, held, hHandle, hWritten, hFlags, hStream, hHeld, BitVec.not_lt.mp hFits⟩ hGives

theorem releaseRenderBuffer_miscounts (hCount : Counted es s) (h : ¬GivesSafely s args) :
    Ends (releaseRenderBuffer args) s fun r s' => ¬Counted ((Call.releaseRenderBuffer args).event s r :: es) s' := by
  unfold GivesSafely at h
  push Not at h
  obtain ⟨handle, written, flags, st, held, hGives, hSome, hFails⟩ := h
  have hOld := hCount _ st hGives.streamFound
  have hNew : ∀ {s' : State}, s'.audio = (givenBack s handle st written).audio → s'.audio.streams.lookup handle.toNat =
      some { st with held := none, position := st.position + written.setWidth 64 } := by
    intro s' hAudio
    rw [hAudio]
    exact AList.lookup_insert _
  have hPos : 0 < written.toNat := Nat.pos_of_ne_zero fun hZero => hSome (BitVec.eq_of_toNat_eq hZero)
  have hWritten := written.isLt
  have hPosition := st.position.isLt
  have hSum : (st.position + written.setWidth 64).toNat = (st.position.toNat + written.toNat) % 2 ^ 64 := by
    rw [BitVec.toNat_add, BitVec.toNat_setWidth]
    omega
  rw [releaseRenderBuffer_gives hGives]
  refine ends_play (fun e s' hAudio _ hCounted => ?_) fun s' hAudio hPcm hWrite hCounted => ?_
  · have hNow : (st.position + written.setWidth 64).toNat = framesSince handle.toNat es := hCounted _ _ (hNew hAudio)
    omega
  · have hNow := hCounted _ _ (hNew hAudio)
    rw [event_given hGives] at hNow
    have hNow' : (st.position + written.setWidth 64).toNat = written.toNat + framesSince handle.toNat es :=
      hNow.trans (if_pos rfl)
    refine hFails ⟨?_, hPcm, hWrite⟩
    omega

end Release

/-! ## Calls with a stream only -/

def ResetsSafely (s : State) (args : U64) : Prop :=
  ∀ handle st, s.sys.mem.readUint args 8 = .ok handle → s.audio.streams.lookup handle.toNat = some st → st.started = false →
    st.position ≠ 0 → ∃ mem, s.sys.mem.writeUint (args + 0x08) 4 (S_OK.setWidth 64) = .ok mem

section Only

variable {args : U64} {es : List Event}

theorem event_reset {handle : U64} (h : s.sys.mem.readUint args 8 = .ok handle) :
    (Call.streamOnly args .CODE_RESET).event s (.ok ⟨S_OK, S_OK⟩) = .reset handle.toNat := by
  have hHandle : argument s args 8 = handle := by rw [argument, h]
  rw [← hHandle]
  rfl

theorem event_only {code : StreamOnly} (hCode : code ≠ .CODE_RESET) (r : Result Reply) : (Call.streamOnly args code).event s r = .other := by
  cases code with
  | CODE_RESET => exact absurd rfl hCode
  | _ => rfl

theorem streamOnly_good (code : StreamOnly) (hTally : Tallied es s) (hSafe : code = .CODE_RESET → ResetsSafely s args) :
    Ends (streamOnly args code) s (Good (.streamOnly args code) es s) := by
  unfold streamOnly
  rw [ends_bind, ends_load]
  cases hHandle : s.sys.mem.readUint args 8 with
  | error e => exact good_of_fault hTally e
  | ok handle =>
    rw [then_ok, ends_bind, ends_streamOf, then_ok]
    cases hStream : s.audio.streams.lookup handle.toNat with
    | none => exact ends_refuse hTally (Same.refl s) (by decide)
    | some st =>
      have hCount := hTally.counted _ st hStream
      dsimp only
      cases code with
      | CODE_START =>
        rw [ends_bind]
        refine (ends_modify _).mpr (ends_noted (fun e s' hAudio _ => ?_) fun s' hAudio _ => ?_)
        · exact good_of_answer (fun _ hr => by cases hr) (tallied_set hTally hStream hAudio hCount fun _ _ => rfl)
        · exact good_of_answer (fun reply hr => by cases hr; rfl) (tallied_set hTally hStream hAudio hCount fun _ _ => rfl)
      | CODE_STOP =>
        rw [ends_bind]
        refine (ends_modify _).mpr (ends_noted (fun e s' hAudio _ => ?_) fun s' hAudio _ => ?_)
        · exact good_of_answer (fun _ hr => by cases hr) (tallied_set hTally hStream hAudio hCount fun _ _ => rfl)
        · exact good_of_answer (fun reply hr => by cases hr; rfl) (tallied_set hTally hStream hAudio hCount fun _ _ => rfl)
      | CODE_RESET =>
        dsimp only
        split
        · exact ends_refuse hTally (Same.refl s) (by decide)
        rename_i hStopped
        rw [ends_bind]
        refine (ends_modify _).mpr (ends_noted (fun e s' hAudio hFails => ?_) fun s' hAudio _ => ?_)
        · have hZero : st.position = 0 := by
            by_contra hSome
            obtain ⟨mem, hWrite⟩ := hSafe rfl handle st hHandle hStream (Bool.eq_false_iff.mpr hStopped) hSome
            exact hFails mem hWrite
          refine good_of_answer (fun _ hr => by cases hr) (tallied_set hTally hStream hAudio ?_ fun _ _ => rfl)
          show (0 : U64).toNat = framesSince handle.toNat es
          rw [← hCount, hZero]
        · refine good_of_answer (fun reply hr => by cases hr; rfl) (tallied_set hTally hStream hAudio ?_ fun h' hNe => ?_)
          · rw [event_reset hHandle]
            exact (if_pos rfl).symm
          · rw [event_reset hHandle]
            exact if_neg hNe.symm
      | CODE_IS_STARTED =>
        refine ends_reply.mpr ⟨fun mem hWrite => ?_, fun e _ => good_of_fault hTally e⟩
        exact good_of_same hTally (same_withMem hWrite) (event_only (fun hEq => by cases hEq) _)

theorem reset_miscounts (hCount : Counted es s) (h : ¬ResetsSafely s args) :
    Ends (streamOnly args .CODE_RESET) s fun r s' => ¬Counted ((Call.streamOnly args .CODE_RESET).event s r :: es) s' := by
  unfold ResetsSafely at h
  push Not at h
  obtain ⟨handle, st, hHandle, hStream, hStopped, hSome, hFails⟩ := h
  have hOld := hCount _ st hStream
  unfold streamOnly
  rw [ends_bind, ends_load, hHandle, then_ok, ends_bind, ends_streamOf, hStream, then_ok]
  dsimp only
  rw [if_neg (by rw [hStopped]; decide), ends_bind]
  refine (ends_modify _).mpr ?_
  rw [then_ok]
  refine ends_noted (fun e s' hAudio _ => fun hCounted => ?_) fun s' _ hWrite => absurd hWrite ?_
  · have hNow := hCounted handle.toNat { st with position := 0, held := none } (by rw [hAudio]; exact AList.lookup_insert _)
    refine hSome (BitVec.eq_of_toNat_eq (hOld.trans hNow.symm))
  · rintro ⟨mem, hWrite⟩
    exact hFails mem hWrite

end Only

/-! ## A stream is opened -/

section Open

variable {args : U64} {es : List Event} {granted : U64 → Bool} {opens : Bool}

def Looks {α : Type} (x : Act α) : Prop := Within (fun s s' : State => s' = s) x

theorem looks_bind {α β : Type} {x : Act α} {f : α → Act β} (hx : Looks x) (hf : ∀ a, Looks (f a)) : Looks (x >>= f) :=
  within_bind (fun h h' => h'.trans h) hx hf

theorem looks_pure {α : Type} (a : α) : Looks (pure a : Act α) := within_pure (R := fun s s' : State => s' = s) (fun _ => rfl) a

theorem looks_load (addr : U64) (n : Nat) : Looks (load addr n) := fun _ => ends_load.mpr rfl

theorem looks_readU16 (addr : U64) : Looks (readU16 addr) := looks_bind (looks_load addr 2) fun _ => looks_pure _

theorem looks_readU32 (addr : U64) : Looks (readU32 addr) := looks_bind (looks_load addr 4) fun _ => looks_pure _

theorem looks_readSubTag (ptr : U64) (tag : U16) : Looks (readSubTag ptr tag) := by
  unfold readSubTag
  split
  · refine looks_bind (looks_readU16 _) fun extra => ?_
    split
    · exact looks_readU32 _
    · exact looks_pure _
  · exact looks_pure _

theorem looks_wfx (ptr : U64) : Looks (Wfx.read ptr) :=
  looks_bind (looks_readU16 ptr) fun tag => looks_bind (looks_readSubTag ptr tag) fun _ => looks_bind (looks_readU16 _) fun _ =>
    looks_bind (looks_readU32 _) fun _ => looks_bind (looks_readU16 _) fun _ => looks_pure _

theorem looks_checkFormat (args : U64) : Looks (checkFormat args) := by
  refine looks_bind (looks_readU32 _) fun flow => ?_
  split
  · exact looks_pure _
  refine looks_bind (looks_readU32 _) fun share => ?_
  split
  · exact looks_pure _
  refine looks_bind (within_get fun _ => rfl) fun now => looks_bind (looks_load _ _) fun device => ?_
  dsimp only
  split
  · exact looks_pure _
  refine looks_bind (looks_load _ _) fun fmtPtr => ?_
  split
  · exact looks_pure _
  refine looks_bind (looks_wfx fmtPtr) fun fmt => ?_
  split
  · exact looks_pure _
  refine looks_bind (looks_load _ _) fun duration => ?_
  split
  · exact looks_pure _
  · exact looks_pure _

def bufferBytes (capacity : U32) : U64 := capacity.setWidth 64 * MIX_FRAME_BYTES.setWidth 64

def Leaks (s : State) (granted : U64 → Bool) (opens : Bool) (args : U64) : Prop :=
  opens = false ∧ ∃ capacity buffer mem, Ends (checkFormat args) s (fun r _ => r = .ok (.ok capacity)) ∧
    (s.sys.mapAnywhere granted (bufferBytes capacity) Perm.RW "audio-render").2 = some buffer ∧
    (s.sys.mapAnywhere granted (bufferBytes capacity) Perm.RW "audio-render").1.mem.writeUint (args + 0x38) 4
      (AUDCLNT_E_DEVICE_INVALIDATED.setWidth 64) = .ok mem

/-- A refusal of the format is an error, and a buffer is never empty. -/
structure FormatAnswer (r : Result (Except U32 U32)) : Prop where
  refused : ∀ hr, r = .ok (.error hr) → 0x80000000 ≤ hr
  accepted : ∀ capacity, r = .ok (.ok capacity) → bufferBytes capacity ≠ 0

theorem formatAnswer_refuse {hr : U32} (hErr : 0x80000000 ≤ hr) (s : State) :
    Ends (pure (.error hr) : Act (Except U32 U32)) s fun r _ => FormatAnswer r := by
  refine (ends_pure _).mpr ⟨fun hr' hEq => ?_, fun capacity hEq => ?_⟩
  · cases hEq
    exact hErr
  · cases hEq

theorem bufferBytes_ne_zero {frames : Nat} (h : ¬MAX_BUFFER_FRAMES.toNat < frames) :
    bufferBytes (BitVec.ofNat 32 (max 1 (min frames MAX_BUFFER_FRAMES.toNat))) ≠ 0 := by
  have hMax : MAX_BUFFER_FRAMES.toNat = 480000 := rfl
  intro hZero
  have hNat := congrArg BitVec.toNat hZero
  unfold bufferBytes at hNat
  rw [BitVec.toNat_mul, BitVec.toNat_setWidth, BitVec.toNat_ofNat, show (MIX_FRAME_BYTES.setWidth 64).toNat = 8 from rfl,
    show (0 : U64).toNat = 0 from rfl] at hNat
  omega

theorem checkFormat_answers (s : State) (args : U64) : Ends (checkFormat args) s fun r _ => FormatAnswer r := by
  have hThen : ∀ {α : Type} {x : Act α} {f : α → Act (Except U32 U32)} {s₁ : State}, Looks x →
      (∀ a s₂, Ends (f a) s₂ fun r _ => FormatAnswer r) → Ends (x >>= f) s₁ fun r _ => FormatAnswer r := by
    intro α x f s₁ hx hf
    refine ends_bind.mpr ((hx s₁).mono fun r s₂ _ => ?_)
    cases r with
    | ok a => exact hf a s₂
    | error e => exact ⟨fun hr hEq => by (cases hEq), fun capacity hEq => by (cases hEq)⟩
  refine hThen (looks_readU32 _) fun flow _ => ?_
  split
  · exact formatAnswer_refuse (by decide) _
  refine hThen (looks_readU32 _) fun share _ => ?_
  split
  · exact formatAnswer_refuse (by decide) _
  refine hThen (within_get fun _ => rfl) fun now _ => hThen (looks_load _ _) fun device _ => ?_
  dsimp only
  split
  · exact formatAnswer_refuse (by decide) _
  refine hThen (looks_load _ _) fun fmtPtr _ => ?_
  split
  · exact formatAnswer_refuse (by decide) _
  refine hThen (looks_wfx fmtPtr) fun fmt _ => ?_
  split
  · exact formatAnswer_refuse (by decide) _
  refine hThen (looks_load _ _) fun duration _ => ?_
  split
  · exact formatAnswer_refuse (by decide) _
  · rename_i hFrames
    refine (ends_pure _).mpr ⟨fun hr hEq => by (cases hEq), fun capacity hEq => ?_⟩
    cases hEq
    exact bufferBytes_ne_zero hFrames

theorem ends_mapAnywhere {size : U64} {Q : Result (Option U64) → State → Prop} : Ends (mapAnywhere granted size) s Q ↔
    Q (.ok (s.sys.mapAnywhere granted size Perm.RW "audio-render").2) { s with sys := (s.sys.mapAnywhere granted size Perm.RW "audio-render").1 } :=
  ends_of_run (p := (.ok _, _)) rfl

def afterCheck (granted : U64 → Bool) (opens : Bool) (args : U64) : Except U32 U32 → Act Reply
  | .error hr => reply (args + 0x38) hr
  | .ok capacity => do
    let buffer ← mapAnywhere granted (bufferBytes capacity)
    afterMap opens args capacity buffer
where
  afterMap (opens : Bool) (args : U64) (capacity : U32) : Option U64 → Act Reply
    | none => reply (args + 0x38) E_OUTOFMEMORY
    | some buffer =>
      if !opens then reply (args + 0x38) AUDCLNT_E_DEVICE_INVALIDATED
      else do
        let handle ← insertStream capacity buffer
        told args handle
  told (args : U64) (handle : Nat) : Act Reply := do
    let countPtr ← load (args + 0x40) 8
    storeAt countPtr 4 (MIX_CHANNELS.setWidth 64)
    let streamPtr ← load (args + 0x48) 8
    storeAt streamPtr 8 (BitVec.ofNat 64 handle)
    reply (args + 0x38) S_OK

theorem createStream_eq : createStream granted opens args = checkFormat args >>= afterCheck granted opens args := rfl

theorem told_answers (s : State) (args : U64) (handle : Nat) : Ends (afterCheck.told args handle) s fun r s' =>
    s'.audio = s.audio ∧ ∀ reply, r = .ok reply → reply.isError = false := by
  have hStore : ∀ (ptr : U64) (n : Nat) (v : U64) (s₁ : State), Ends (storeAt ptr n v) s₁ fun _ s' => s'.audio = s₁.audio := by
    intro ptr n v s₁
    unfold storeAt
    split
    · exact ends_store.mpr ⟨fun _ _ => rfl, fun _ _ => rfl⟩
    · exact (ends_pure _).mpr rfl
  have hThen : ∀ {α : Type} {x : Act α} {f : α → Act Reply} {s₁ : State}, (s₁.audio = s.audio) →
      Ends x s₁ (fun _ s' => s'.audio = s₁.audio) →
      (∀ a (s₂ : State), s₂.audio = s.audio → Ends (f a) s₂ fun r s' => s'.audio = s.audio ∧ ∀ reply, r = .ok reply → reply.isError = false) →
      Ends (x >>= f) s₁ fun r s' => s'.audio = s.audio ∧ ∀ reply, r = .ok reply → reply.isError = false := by
    intro α x f s₁ hFirst hx hf
    refine ends_bind.mpr (hx.mono fun r s₂ hAudio => ?_)
    cases r with
    | ok a => exact hf a s₂ (hAudio.trans hFirst)
    | error e => exact ⟨hAudio.trans hFirst, fun _ hEq => by cases hEq⟩
  refine hThen rfl (ends_load.mpr rfl) fun countPtr s₁ h₁ => hThen h₁ (hStore _ _ _ _) fun _ s₂ h₂ => hThen h₂ (ends_load.mpr rfl)
    fun streamPtr s₃ h₃ => hThen h₃ (hStore _ _ _ _) fun _ s₄ h₄ => ends_reply.mpr ⟨fun mem _ => ⟨h₄, fun reply hEq => ?_⟩, fun e _ => ⟨h₄, fun _ hEq => ?_⟩⟩
  · cases hEq
    rfl
  · cases hEq

theorem tallied_opened {capacity : U32} {buffer : U64} {c : Call} {r : Result Reply} (hTally : Tallied es s)
    (hAudio : s'.audio = ⟨s.audio.streams.insert (s.audio.nextHandle + 1) ⟨capacity, buffer, none, false, 0⟩, s.audio.nextHandle + 1⟩)
    (hEvent : c.event s r = .other) : Tallied (c.event s r :: es) s' := by
  rw [hEvent]
  constructor
  · intro h st hst
    rw [hAudio] at hst
    by_cases hNew : h = s.audio.nextHandle + 1
    · rw [hNew, AList.lookup_insert] at hst
      cases hst
      rw [hNew]
      exact (hTally.unused _ (Nat.lt_succ_self _)).2.symm
    · rw [AList.lookup_insert_ne hNew] at hst
      exact hTally.counted h st hst
  · intro h hLess
    rw [hAudio] at hLess ⊢
    have hNe : h ≠ s.audio.nextHandle + 1 := Nat.ne_of_gt hLess
    rw [AList.lookup_insert_ne hNe]
    exact hTally.unused h (Nat.lt_of_succ_lt hLess)

theorem createStream_good (hTally : Tallied es s) (hSafe : ¬Leaks s granted opens args) :
    Ends (createStream granted opens args) s (Good (.createStream granted opens args) es s) := by
  have hEvent : ∀ r, (Call.createStream granted opens args).event s r = .other := fun r => by cases r <;> rfl
  rw [createStream_eq, ends_bind]
  obtain ⟨⟨r, s₁⟩, hRun, hSame⟩ := looks_checkFormat args s
  obtain ⟨p, hRun', hAnswer⟩ := checkFormat_answers s args
  cases hRun.symm.trans hRun'
  dsimp only at hSame hAnswer
  rw [ends_of_run hRun]
  subst hSame
  cases r with
  | error e => exact good_of_fault hTally e
  | ok format =>
    rw [then_ok]
    cases format with
    | error hr => exact ends_refuse hTally (Same.refl _) (hAnswer.refused hr rfl)
    | ok capacity =>
      rw [afterCheck, ends_bind, ends_mapAnywhere, then_ok]
      have hMaps := s₁.sys.mapAnywhere_maps granted (bufferBytes capacity) Perm.RW "audio-render"
      cases hMapped : (s₁.sys.mapAnywhere granted (bufferBytes capacity) Perm.RW "audio-render").2 with
      | none =>
        have hLayout : (s₁.sys.mapAnywhere granted (bufferBytes capacity) Perm.RW "audio-render").1.mem.layout = s₁.sys.mem.layout := by
          generalize s₁.sys.mapAnywhere granted (bufferBytes capacity) Perm.RW "audio-render" = p at hMaps hMapped
          cases hMaps with
          | fails next => rfl
          | maps next base region bytes mem hBase hSize hLast hInsert => cases hMapped
        exact ends_refuse hTally ⟨rfl, hLayout⟩ (by decide)
      | some buffer =>
        cases opens with
        | true =>
          refine ends_bind.mpr ((ends_of_run rfl).mpr ?_)
          refine (told_answers _ args _).mono fun r s' hTold => ?_
          exact good_of_answer hTold.2 (tallied_opened hTally hTold.1 (hEvent r))
        | false =>
          refine ends_reply.mpr ⟨fun mem hWrite => absurd ⟨rfl, capacity, buffer, mem, (ends_of_run hRun).mpr rfl, hMapped, hWrite⟩ hSafe,
            fun e _ => ?_⟩
          refine good_of_answer (fun _ hr => by cases hr) (tallied_of_audio hTally rfl (hEvent _))

theorem mapped_grows {size buffer : U64} {sys : Sys} (hSize : size ≠ 0)
    (h : (sys.mapAnywhere granted size Perm.RW "audio-render").2 = some buffer) :
    (sys.mapAnywhere granted size Perm.RW "audio-render").1.mem.layout.length = sys.mem.layout.length + 1 := by
  have hMaps := sys.mapAnywhere_maps granted size Perm.RW "audio-render"
  generalize sys.mapAnywhere granted size Perm.RW "audio-render" = p at hMaps h
  cases hMaps with
  | fails next => cases h
  | maps next base region bytes mem hBase hRegion hLast hInsert =>
    rcases VirtualMemory.insert_ok hInsert with ⟨hZero, -⟩ | ⟨-, -, rfl⟩
    · exact absurd (hRegion.symm.trans hZero) hSize
    · unfold VirtualMemory.layout
      simp only [List.length_map, List.length_append, List.length_cons, List.length_take, List.length_drop]
      have hPoint := partitionPoint_le (fun x : Mapped => decide (x.region.base < region.base)) sys.mem.regions
      omega

theorem createStream_leaks (h : Leaks s granted opens args) :
    Ends (createStream granted opens args) s fun r s' => r = .ok ⟨S_OK, AUDCLNT_E_DEVICE_INVALIDATED⟩ ∧ s'.sys.mem.layout ≠ s.sys.mem.layout := by
  obtain ⟨rfl, capacity, buffer, mem, hCheck, hMapped, hWrite⟩ := h
  obtain ⟨⟨r, s₁⟩, hRun, hFormat⟩ := hCheck
  obtain ⟨p, hRun', hSame⟩ := looks_checkFormat args s
  cases hRun.symm.trans hRun'
  obtain ⟨p, hRun', hAnswer⟩ := checkFormat_answers s args
  cases hRun.symm.trans hRun'
  dsimp only at hSame hFormat hAnswer
  subst hSame hFormat
  have hGrows := mapped_grows (hAnswer.accepted capacity rfl) hMapped
  rw [createStream_eq, ends_bind, ends_of_run hRun, then_ok, afterCheck, ends_bind, ends_mapAnywhere, then_ok, hMapped]
  refine ends_reply.mpr ⟨fun mem' hWrite' => ⟨rfl, ?_⟩, fun e hErr => ?_⟩
  · intro hEq
    have hKept := VirtualMemory.writeUint_layout hWrite'
    have hLength := congrArg List.length (hKept.symm.trans hEq)
    dsimp only at hLength
    rw [hGrows] at hLength
    exact absurd hLength (Nat.succ_ne_self _)
  · cases hWrite.symm.trans hErr

end Open

/-! ## Calls that ask, and calls that close -/

section Rest

variable {args : U64} {es : List Event}

def Quiet {α : Type} (x : Act α) : Prop := Within Same x

theorem quiet_bind {α β : Type} {x : Act α} {f : α → Act β} (hx : Quiet x) (hf : ∀ a, Quiet (f a)) : Quiet (x >>= f) :=
  within_bind (R := Same) Same.trans hx hf

theorem quiet_load (addr : U64) (n : Nat) : Quiet (load addr n) := fun s => ends_load.mpr (Same.refl s)

theorem quiet_store (addr : U64) (n : Nat) (v : U64) : Quiet (store addr n v) := fun s =>
  ends_store.mpr ⟨fun _ hWrite => same_withMem hWrite, fun _ _ => Same.refl s⟩

theorem quiet_storeAt (ptr : U64) (n : Nat) (v : U64) : Quiet (storeAt ptr n v) := by
  unfold storeAt
  split
  · exact quiet_store ptr n v
  · exact within_pure Same.refl ()

theorem quiet_reply (addr : U64) (hr : U32) : Quiet (reply addr hr) := quiet_bind (quiet_store addr 4 _) fun _ => within_pure Same.refl _

theorem quiet_streamOf (handle : U64) : Quiet (streamOf handle) := fun s => ends_streamOf.mpr (Same.refl s)

theorem quiet_streamOut (args : U64) (code : StreamOut) : Quiet (streamOut args code) := by
  refine quiet_bind (quiet_load _ _) fun handle => quiet_bind (quiet_load _ _) fun out => quiet_bind (quiet_streamOf handle) fun found => ?_
  cases found with
  | none => exact quiet_reply _ _
  | some st =>
    dsimp only
    split
    · exact quiet_reply _ _
    · cases code with
      | CODE_GET_NEXT_PACKET_SIZE => exact quiet_reply _ _
      | _ => exact quiet_bind (quiet_store _ _ _) fun _ => quiet_reply _ _

theorem quiet_getPosition (now args : U64) : Quiet (getPosition now args) := by
  refine quiet_bind (quiet_load _ _) fun handle => quiet_bind (quiet_streamOf handle) fun found => ?_
  cases found with
  | none => exact quiet_reply _ _
  | some st =>
    exact quiet_bind (quiet_load _ _) fun ptr => quiet_bind (quiet_storeAt _ _ _) fun _ => quiet_bind (quiet_load _ _) fun qpc =>
      quiet_bind (quiet_storeAt _ _ _) fun _ => quiet_reply _ _

theorem good_of_quiet {c : Call} (hTally : Tallied es s) (h : Quiet c.run) (hEvent : ∀ r, c.event s r = .other) : Ends c.run s (Good c es s) :=
  (h s).mono fun r _ hSame => good_of_same hTally hSame (hEvent r)

theorem tallied_of_fewer (hTally : Tallied es s) (hNext : s'.audio.nextHandle = s.audio.nextHandle)
    (hFewer : ∀ h st, s'.audio.streams.lookup h = some st → s.audio.streams.lookup h = some st) : Tallied (.other :: es) s' := by
  refine ⟨fun h st hst => hTally.counted h st (hFewer h st hst), fun h hLess => ?_⟩
  rw [hNext] at hLess
  obtain ⟨hNone, hZero⟩ := hTally.unused h hLess
  refine ⟨?_, hZero⟩
  cases hStill : s'.audio.streams.lookup h with
  | none => rfl
  | some st =>
    rw [hFewer h st hStill] at hNone
    cases hNone

theorem ends_closeIfIdle {Q : Result Unit → State → Prop} (hQ : ∀ s' : State, s'.audio = s.audio → Q (.ok ()) s') : Ends closeIfIdle s Q := by
  unfold closeIfIdle
  rw [ends_bind, ends_get, then_ok]
  split
  · exact (ends_modify _).mpr (hQ _ rfl)
  · exact (ends_pure _).mpr (hQ _ rfl)

theorem releaseStream_good (hTally : Tallied es s) : Ends (releaseStream args) s (Good (.releaseStream args) es s) := by
  have hEvent : ∀ r, (Call.releaseStream args).event s r = .other := fun r => by cases r <;> rfl
  unfold releaseStream
  rw [ends_bind, ends_load]
  cases hHandle : s.sys.mem.readUint args 8 with
  | error e => exact good_of_fault hTally e
  | ok handle =>
    -- whatever is taken away, the rest of the call changes no stream and does not refuse
    have hRest : ∀ s₁ : State, Tallied (.other :: es) s₁ →
        Ends (do closeIfIdle; reply (args + 0x10) S_OK) s₁ (Good (.releaseStream args) es s) := by
      intro s₁ hFewer
      have hAnswer : ∀ {s₂ : State} {r : Result Reply}, s₂.audio = s₁.audio → (∀ reply, r = .ok reply → reply.isError = false) →
          Good (.releaseStream args) es s r s₂ := by
        intro s₂ r hAudio hOk
        refine good_of_answer hOk ?_
        rw [hEvent]
        exact ⟨fun h st hst => hFewer.counted h st (hAudio ▸ hst), fun h hLess => hAudio ▸ hFewer.unused h (hAudio ▸ hLess)⟩
      rw [ends_bind]
      refine ends_closeIfIdle fun s₂ hAudio => ?_
      refine ends_reply.mpr ⟨fun mem _ => hAnswer hAudio fun reply hEq => ?_, fun e _ => hAnswer hAudio fun _ hEq => by (cases hEq)⟩
      cases hEq
      rfl
    rw [then_ok, ends_bind]
    unfold removeStream
    rw [ends_bind, ends_streamOf, then_ok]
    cases hStream : s.audio.streams.lookup handle.toNat with
    | none => exact (ends_pure _).mpr (hRest s (tallied_of_fewer hTally rfl fun _ _ hst => hst))
    | some st =>
      refine (ends_modify _).mpr (hRest _ (tallied_of_fewer hTally rfl fun h st' hst => ?_))
      have hLookup : (s.audio.streams.erase handle.toNat).lookup h = some st' := hst
      by_cases hEq : h = handle.toNat
      · rw [hEq, AList.lookup_erase] at hLookup
        cases hLookup
      · rwa [AList.lookup_erase_ne hEq] at hLookup

theorem foldl_unmapStream (sts : List Stream) (s : State) : (sts.foldl unmapStream s).audio = s.audio := by
  induction sts generalizing s with
  | nil => rfl
  | cons st sts ih => exact ih _

theorem processDetach_good (hTally : Tallied es s) : Ends processDetach s (Good .processDetach es s) := by
  unfold processDetach
  rw [ends_bind]
  refine (ends_modify _).mpr ?_
  rw [then_ok, ends_bind]
  refine (ends_modify _).mpr ((ends_pure _).mpr (good_of_answer (fun reply hEq => ?_) ?_))
  · cases hEq
    rfl
  · have hAudio := foldl_unmapStream (s.audio.streams.entries.map Sigma.snd) { s with audio := { s.audio with streams := ∅ } }
    have hNext := congrArg AudioState.nextHandle hAudio
    refine tallied_of_fewer hTally hNext fun h st hst => ?_
    have hNone : (∅ : AList fun _ : Nat => Stream).lookup h = some st := (congrArg (fun a => a.streams.lookup h) hAudio).symm.trans hst
    rw [AList.lookup_empty] at hNone
    cases hNone

end Rest

/-! ## Runs -/

def Call.Sound (s : State) : Call → Prop
  | .createStream granted opens args => ¬Leaks s granted opens args
  | .getRenderBuffer args => ¬GetsNowhere s args
  | .releaseRenderBuffer args => GivesSafely s args
  | .streamOnly args .CODE_RESET => ResetsSafely s args
  | _ => True

def Call.Meets (c : Call) (es : List Event) (s : State) : Prop :=
  Ends c.run s fun r s' => (∀ reply, r = .ok reply → reply.isError = true → Same s s') ∧ Counted (c.event s r :: es) s'

theorem Call.good_of_sound {c : Call} {es : List Event} (hTally : Tallied es s) (h : c.Sound s) : Ends c.run s (Good c es s) := by
  cases c with
  | createStream granted opens args => exact createStream_good hTally h
  | releaseStream args => exact releaseStream_good hTally
  | streamOnly args code => exact streamOnly_good code hTally fun hCode => by subst hCode; exact h
  | getRenderBuffer args => exact getRenderBuffer_good hTally h
  | releaseRenderBuffer args => exact releaseRenderBuffer_good hTally h
  | capture args => exact ends_refuse hTally (Same.refl s) (by decide)
  | streamOut args code => exact good_of_quiet hTally (quiet_streamOut args code) fun r => by cases r <;> rfl
  | getPosition now args => exact good_of_quiet hTally (quiet_getPosition now args) fun r => by cases r <;> rfl
  | processDetach => exact processDetach_good hTally

theorem Call.meets_iff {c : Call} {es : List Event} (hTally : Tallied es s) : c.Meets es s ↔ c.Sound s := by
  constructor
  · rintro ⟨p, hRun, hKeeps, hCounted⟩
    by_contra hUnsound
    cases c with
    | createStream granted opens args =>
      obtain ⟨q, hRun', hReply, hLayout⟩ := createStream_leaks (not_not.mp hUnsound)
      cases hRun.symm.trans hRun'
      exact hLayout (hKeeps _ hReply (by decide)).2
    | getRenderBuffer args =>
      obtain ⟨q, hRun', hReply, hAudio⟩ := getRenderBuffer_stuck (not_not.mp hUnsound)
      cases hRun.symm.trans hRun'
      exact hAudio (hKeeps _ hReply (by decide)).1
    | releaseRenderBuffer args =>
      obtain ⟨q, hRun', hMiscounts⟩ := releaseRenderBuffer_miscounts hTally.counted hUnsound
      cases hRun.symm.trans hRun'
      exact hMiscounts hCounted
    | streamOnly args code =>
      cases code with
      | CODE_RESET =>
        obtain ⟨q, hRun', hMiscounts⟩ := reset_miscounts hTally.counted hUnsound
        cases hRun.symm.trans hRun'
        exact hMiscounts hCounted
      | _ => exact hUnsound trivial
    | _ => exact hUnsound trivial
  · exact fun hSound => (Call.good_of_sound hTally hSound).mono fun r s' hGood => ⟨hGood.1, hGood.2.counted⟩

/-- The driver from its start on: between two calls the guest does what it likes with everything but the driver's streams. -/
inductive Run : List Event → State → Prop
  | start (sys : Sys) (sink : List SinkOp) : Run [] ⟨sys, ⟨∅, 0⟩, sink⟩
  | guest {es s} (h : Run es s) (sys : Sys) : Run es { s with sys := sys }
  | call {es s} (h : Run es s) (c : Call) {r : Result Reply} {s' : State} (hRun : c.run s = some (r, s')) : Run (c.event s r :: es) s'

inductive SoundRun : List Event → State → Prop
  | start (sys : Sys) (sink : List SinkOp) : SoundRun [] ⟨sys, ⟨∅, 0⟩, sink⟩
  | guest {es s} (h : SoundRun es s) (sys : Sys) : SoundRun es { s with sys := sys }
  | call {es s} (h : SoundRun es s) (c : Call) (hSound : c.Sound s) {r : Result Reply} {s' : State} (hRun : c.run s = some (r, s')) :
    SoundRun (c.event s r :: es) s'

theorem SoundRun.tallied {es : List Event} (h : SoundRun es s) : Tallied es s := by
  induction h with
  | start sys sink =>
    refine ⟨fun h st hst => ?_, fun h _ => ⟨AList.lookup_empty h, rfl⟩⟩
    rw [AList.lookup_empty] at hst
    cases hst
  | guest h sys ih => exact ⟨ih.counted, ih.unused⟩
  | call h c hSound hRun ih =>
    obtain ⟨p, hRun', hGood⟩ := Call.good_of_sound ih hSound
    cases hRun.symm.trans hRun'
    exact hGood.2

def argumentCells : List (Nat × U8) :=
  [(0x09, 0x01), (0x0a, 0x01), (0x31, 0x02), (0x32, 0x01), (0x80, 1), (0x88, 1)] ++
    (ENDPOINT_ID.toList.mapIdx fun i c => (0x100 + i, BitVec.ofNat 8 c.toNat)) ++
    [(0x200, 3), (0x202, 2), (0x204, 0x80), (0x205, 0xBB), (0x20E, 32)]

def guestPage : Sys where
  os := WinOs.new ⟨true, 0, 0⟩ 0x100000 0 0 0 0 none
  cpu := {}
  mem := { VirtualMemory.new with
    regions := [⟨⟨"args", 0x10000, 0x1000, Perm.RW⟩, fun i => (argumentCells.lookup i).getD 0, 0⟩] }

def atStart : State := ⟨guestPage, ⟨∅, 0⟩, []⟩

def openOne : Call := .createStream (fun _ => true) true 0x10000

def heldOf (s : State) : Option (Option U32) := (s.audio.streams.lookup 1).map Stream.held

theorem openOne_runs : ((openOne.run atStart).map fun p => heldOf p.2) = some (some none) := by decide

def refusedGet : Option (Option Reply × Option (Option U32) × Option (Option U32)) := do
  let p ← openOne.run atStart
  let q ← (Call.getRenderBuffer 0x10080).run p.2
  return (q.1.toOption, heldOf p.2, heldOf q.2)

end Audio

end Exemu.Os
