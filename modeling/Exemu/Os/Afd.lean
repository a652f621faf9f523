import Exemu.Memory.Facts
import Exemu.Os.Net

/-! # What a refused request leaves behind

A request that fails leaves the sockets as they were, with all that the host has handed over, when
no socket is changed before the host has its say and the guest can be told of whatever was done.
-/
namespace Exemu.Os

namespace Net

open Fallible
open FileIo (writeIosb store)

variable {s s' s'' : Sockets} {k k' : Socket} {req : Request} {iosb handle : U64} {turn : HostTurn} {turns : List HostTurn}
  {mem mem' : VirtualMemory} {bufs : List WsaBuf} {data : List U8} {info : U64} {status : U32} {e : EmuError}

/-! ## What is kept -/

def newFor (handle : U64) (new : List (U64 × Nat)) : List Nat := (new.filter fun p => p.1 == handle).map (·.2)

/-- The sockets are as they were, but that connections may have come to wait, and no bytes are gone. -/
structure Unharmed (s s' : Sockets) : Prop where
  drawn : s'.drawn = s.drawn
  kept : ∃ new, s'.accepted = s.accepted ++ new ∧ ∀ handle, s'.sockets handle = (s.sockets handle).map (·.waiting (newFor handle new))

theorem waiting_nil (k : Socket) : k.waiting [] = k := by
  unfold Socket.waiting
  rw [List.append_nil]

theorem waiting_waiting (k : Socket) (a b : List Nat) : (k.waiting a).waiting b = k.waiting (a ++ b) := by
  unfold Socket.waiting
  rw [List.append_assoc]

theorem newFor_append (handle : U64) (a b : List (U64 × Nat)) : newFor handle (a ++ b) = newFor handle a ++ newFor handle b := by
  unfold newFor
  rw [List.filter_append, List.map_append]

theorem Unharmed.of_same (hSockets : s'.sockets = s.sockets) (hDrawn : s'.drawn = s.drawn) (hAccepted : s'.accepted = s.accepted) : Unharmed s s' where
  drawn := hDrawn
  kept := by
    refine ⟨[], by rw [hAccepted, List.append_nil], fun handle => ?_⟩
    rw [hSockets]
    change _ = (s.sockets handle).map (·.waiting [])
    rw [funext waiting_nil]
    exact Option.map_id'.symm

theorem Unharmed.refl (s : Sockets) : Unharmed s s := .of_same rfl rfl rfl

theorem Unharmed.withMem (s : Sockets) (mem : VirtualMemory) : Unharmed s (s.withMem mem) := .of_same rfl rfl rfl

theorem Unharmed.trans (hFirst : Unharmed s s') (hSecond : Unharmed s' s'') : Unharmed s s'' where
  drawn := hSecond.drawn.trans hFirst.drawn
  kept := by
    obtain ⟨a, ha, hA⟩ := hFirst.kept
    obtain ⟨b, hb, hB⟩ := hSecond.kept
    refine ⟨a ++ b, by rw [hb, ha, List.append_assoc], fun handle => ?_⟩
    rw [hB, hA, Option.map_map, newFor_append]
    exact congrFun (congrArg Option.map (funext fun k => waiting_waiting k _ _)) _

theorem setSocket_same (h : s.sockets handle = some k) : s.setSocket handle k = s := by
  unfold Sockets.setSocket
  rw [← h, Function.update_eq_self]

/-! ## What a request is to do -/

def Told (reply : Fallible VirtualMemory EmuError U64) (iosb : U64) (mem : VirtualMemory) : Prop :=
  ∃ info mid mem', reply mem = some (.ok info, mid) ∧ writeIosb iosb STATUS_SUCCESS info mid = some (.ok (), mem')

/-- One try of a request: it leaves the sockets alone, or it is done and the guest can be told. -/
def Answers (s : Sockets) (iosb : U64) : Except EmuError OpResult → Sockets → Prop
  | .ok (.Done status info), s' => Unharmed s s' ∨ status = STATUS_SUCCESS ∧ ∃ mem', writeIosb iosb STATUS_SUCCESS info s'.mem = some (.ok (), mem')
  | .ok .WouldBlock, s' => Unharmed s s' ∧ s'.mem = s.mem
  | .error _, s' => Unharmed s s'

def Short (req : Request) (len : Nat) : Prop := req.inLen.toNat < len ∨ req.inBuf = 0

def CreateOrderly (s : Sockets) (k : Socket) (req : Request) (iosb : U64) : Prop :=
  ∀ family kind protocol, ¬Short req CREATE_PARAMS_LEN → createParams req s.mem = .ok (family, kind, protocol) → isSupported family kind = true →
    k.create family kind protocol = k ∨ Told (pure 0) iosb s.mem

def BindOrderly (s : Sockets) (k : Socket) (req : Request) (iosb : U64) (turn : HostTurn) : Prop :=
  ∀ addr ep, bindAddr req s.mem = .ok (some addr) → bindHost turn k.kind = .ok ep → k.bind ep addr = k ∨ Told (bindReply req turn.name) iosb s.mem

def ListenOrderly (s : Sockets) (k : Socket) (req : Request) (iosb : U64) : Prop :=
  ∀ backlog, ¬Short req LISTEN_PARAMS_LEN → s.mem.readUint (req.inBuf + LISTEN_BACKLOG_OFF) 4 = .ok backlog → k.isListener = true →
    k.listen = k ∨ Told (pure 0) iosb s.mem

def ConnectOrderly (s : Sockets) (k : Socket) (req : Request) (iosb : U64) (turn : HostTurn) : Prop :=
  ∀ addr before made, ¬Short req CONNECT_PARAMS_HEADER → connectAddr req s.mem = .ok (some addr) → connectHost turn k addr = .ok (before, made) →
    (∀ e, made = .error e → k.isListener = false) ∧ ∀ k', made = .ok k' → k' = k ∨ Told (pure 0) iosb s.mem

def AcceptOrderly (s : Sockets) (k : Socket) (req : Request) (iosb : U64) (turn : HostTurn) : Prop :=
  ¬(req.outLen.toNat < ACCEPT_OUT_LEN ∨ req.outBuf = 0) → (k.pending ≠ [] ∨ k.isListener = true ∧ ∃ stream, turn.accept = .ok stream) →
    Told (acceptReply req s.nextHandle) iosb s.mem

def RecvOrderly (s : Sockets) (k : Socket) (req : Request) (iosb : U64) (turn : HostTurn) : Prop :=
  ∀ args data sender, ¬Short req RECVMSG_PARAMS_LEN → recvArgs req s.mem = .ok args → k.rdShutdown = false →
    k.receive turn (capacity args.bufs) = .ok (data, sender) → data = [] ∨ Told (recvReply args data sender) iosb s.mem

def ShutdownOrderly (s : Sockets) (k : Socket) (req : Request) (iosb : U64) (turn : HostTurn) : Prop :=
  ∀ how, ¬Short req SHUTDOWN_PARAMS_LEN → s.mem.readUint req.inBuf 4 = .ok how →
    k.shut (how.setWidth 32) = k ∨ shutHost turn k.ep = OK ∧ Told (pure 0) iosb s.mem

def Orderly (s : Sockets) (req : Request) (iosb : U64) (turn : HostTurn) : Prop :=
  ∀ k, s.sockets req.handle = some k →
    match ofCode req.code with
    | some .wineCreate => CreateOrderly s k req iosb
    | some .bind => BindOrderly s k req iosb turn
    | some .startListen => ListenOrderly s k req iosb
    | some .wineConnect => ConnectOrderly s k req iosb turn
    | some .wineAccept => AcceptOrderly s k req iosb turn
    | some .wineRecvmsg => RecvOrderly s k req iosb turn
    | some .wineShutdown => ShutdownOrderly s k req iosb turn
    | _ => True

/-! ## The parts of a request -/

section Parts

variable {α β : Type} {Q : Except EmuError β → Sockets → Prop}

variable {f : VirtualMemory → Result α}

theorem query_ok {a : α} (h : f s.mem = .ok a) : query f s = some (.ok a, s) := step_of_ok (by rw [h]; rfl)

theorem query_error (h : f s.mem = .error e) : query f s = some (.error e, s) := step_of_error (by rw [h]; rfl)

theorem onMem_run {x : Fallible VirtualMemory EmuError α} {r : Except EmuError α} (h : x s.mem = some (r, mem)) :
    onMem x s = some (r, s.withMem mem) := by
  unfold onMem
  rw [h]
  rfl

theorem ends_query {x : α → Act β} (hOk : ∀ a, f s.mem = .ok a → Ends (x a) s Q) (hError : ∀ e, Q (.error e) s) : Ends (query f >>= x) s Q := by
  cases h : f s.mem with
  | ok a => exact (ends_ok (query_ok h)).mpr (hOk a h)
  | error e => exact (ends_error (query_error h)).mpr (hError e)

theorem ends_socketMut {x : Socket → Act β} (h : s.sockets handle = some k) : Ends (socketMut handle >>= x) s Q ↔ Ends (x k) s Q := by
  refine ends_ok ?_
  unfold socketMut
  rw [h]
  rfl

theorem ends_setSocket {x : Act β} : Ends (setSocket handle k >>= fun _ => x) s Q ↔ Ends x (s.setSocket handle k) Q := ends_ok rfl

theorem ends_modify_bind {f : Sockets → Sockets} {x : Act β} : Ends (modify f >>= fun _ => x) s Q ↔ Ends x (f s) Q := ends_ok rfl

theorem ends_onMem {x : Fallible VirtualMemory EmuError α} {y : α → Act β} (hx : ∃ p, x s.mem = some p)
    (hOk : ∀ a mem, x s.mem = some (.ok a, mem) → Ends (y a) (s.withMem mem) Q) (hError : ∀ e mem, x s.mem = some (.error e, mem) → Q (.error e) (s.withMem mem)) :
    Ends (onMem x >>= y) s Q := by
  obtain ⟨⟨r, mem⟩, h⟩ := hx
  cases r with
  | ok a => exact (ends_ok (onMem_run h)).mpr (hOk a mem h)
  | error e => exact (ends_error (onMem_run h)).mpr (hError e mem h)

end Parts

/-! ## What is written to the guest -/

def Total {α : Type} (x : Fallible VirtualMemory EmuError α) : Prop := ∀ mem, ∃ p, x mem = some p

variable {α : Type} {x : Fallible VirtualMemory EmuError α}

theorem total_pure (a : α) : Total (pure a) := fun mem => ⟨(.ok a, mem), rfl⟩

theorem total_step (f : VirtualMemory → Except EmuError (α × VirtualMemory)) : Total (Fallible.step f) := by
  intro mem
  cases h : f mem with
  | ok p => exact ⟨(.ok p.1, p.2), step_of_ok h⟩
  | error e => exact ⟨(.error e, mem), step_of_error h⟩

theorem total_bind {β : Type} {y : α → Fallible VirtualMemory EmuError β} (hx : Total x) (hy : ∀ a, Total (y a)) : Total (x >>= y) := by
  intro mem
  obtain ⟨⟨r, mid⟩, h⟩ := hx mem
  cases r with
  | ok a =>
    obtain ⟨p, hp⟩ := hy a mid
    exact ⟨p, (bind_of_ok h).trans hp⟩
  | error e => exact ⟨(.error e, mid), bind_of_error h⟩

theorem total_ite {c : Prop} [Decidable c] {y : Fallible VirtualMemory EmuError α} (hx : Total x) (hy : Total y) : Total (if c then x else y) := by
  split
  · exact hx
  · exact hy

theorem total_writeIosb (iosb : U64) (status : U32) (info : U64) : Total (writeIosb iosb status info) :=
  total_ite (total_pure _) (total_bind (total_step _) fun _ => total_bind (total_step _) fun _ => total_step _)

theorem total_writeSockaddr (ptr : U64) (cap : Nat) (addr : SocketAddr) : Total (writeSockaddr ptr cap addr) :=
  total_ite (total_pure _) (total_bind (total_step _) fun _ => total_pure _)

theorem total_tellReady (p : U64) (ready : List (U64 × U32)) (i : Nat) : Total (tellReady p i ready) := by
  induction ready generalizing i with
  | nil => exact total_pure _
  | cons entry ready ih =>
    obtain ⟨handle, flags⟩ := entry
    exact total_bind (total_step _) fun _ => total_bind (total_step _) fun _ => total_bind (total_step _) fun _ => ih (i + 1)

/-! ## The tries that leave the sockets alone -/

theorem answers_same (s : Sockets) (iosb : U64) (r : Except EmuError OpResult) : Answers s iosb r s := by
  cases r with
  | error e => exact Unharmed.refl s
  | ok r =>
    cases r with
    | Done status info => exact Or.inl (Unharmed.refl s)
    | WouldBlock => exact ⟨Unharmed.refl s, rfl⟩

theorem ends_here (r : OpResult) : Ends (pure r) s (Answers s iosb) := (ends_pure r).mpr (answers_same s iosb _)

theorem answers_done (h : Unharmed s s') (status : U32) (info : U64) : Ends (pure (.Done status info)) s' (Answers s iosb) := (ends_pure _).mpr (Or.inl h)

theorem afdSend_answers (hSock : s.sockets req.handle = some k) : Ends (afdSend turn req) s (Answers s iosb) := by
  unfold afdSend
  split
  · exact ends_here _
  · refine ends_query (fun a _ => ?_) fun e => answers_same s iosb _
    obtain ⟨dest, data⟩ := a
    dsimp only
    split
    · exact ends_here _
    · rw [ends_socketMut hSock]
      split
      · exact ends_here _
      · split
        · exact ends_here _
        · exact ends_here _
        · exact ends_here _

theorem afdGetName_answers (hSock : s.sockets req.handle = some k) (peer : Bool) : Ends (afdGetName turn req peer) s (Answers s iosb) := by
  unfold afdGetName
  rw [ends_socketMut hSock]
  split
  · exact ends_here _
  · refine ends_onMem (total_writeSockaddr _ _ _ _) (fun a mem _ => ?_) fun e mem _ => Unharmed.withMem s mem
    cases a with
    | none => exact answers_done (Unharmed.withMem s mem) _ _
    | some n => exact answers_done (Unharmed.withMem s mem) _ _

theorem afdGetSocketInfo_answers (hSock : s.sockets req.handle = some k) : Ends (afdGetSocketInfo req) s (Answers s iosb) := by
  unfold afdGetSocketInfo
  split
  · exact ends_here _
  · rw [ends_socketMut hSock]
    exact ends_onMem (total_bind (total_step _) (fun _ => total_bind (total_step _) fun _ => total_step _) _)
      (fun _ mem _ => answers_done (Unharmed.withMem s mem) _ _) fun e mem _ => Unharmed.withMem s mem

/-! ## Polling -/

theorem afdReadiness_unharmed (handle : U64) (probe : Probe) (s : Sockets) :
    ∃ flags s', afdReadiness handle probe s = some (.ok flags, s') ∧ Unharmed s s' ∧ s'.mem = s.mem := by
  unfold afdReadiness
  cases hSock : s.sockets handle with
  | none => exact ⟨_, s, rfl, Unharmed.refl s, rfl⟩
  | some k =>
    refine ⟨_, _, rfl, ⟨rfl, (k.probed probe).map fun c => (handle, c), rfl, fun h => ?_⟩, rfl⟩
    by_cases hSame : h = handle
    · subst hSame
      have hAll : newFor h ((k.probed probe).map fun c => (h, c)) = k.probed probe := by
        unfold newFor
        rw [List.filter_eq_self.mpr (by
          intro p hp
          obtain ⟨c, -, rfl⟩ := List.mem_map.mp hp
          exact beq_self_eq_true h), List.map_map]
        exact List.map_id _
      rw [hSock, hAll]
      exact Function.update_self ..
    · have hNone : newFor h ((k.probed probe).map fun c => (handle, c)) = [] := by
        unfold newFor
        rw [List.filter_eq_nil_iff.mpr (by
          intro p hp
          obtain ⟨c, -, rfl⟩ := List.mem_map.mp hp
          exact fun hEq => hSame (beq_iff_eq.mp hEq).symm)]
        rfl
      rw [hNone, funext waiting_nil]
      exact (Function.update_of_ne hSame ..).trans Option.map_id'.symm

theorem pollFrom_unharmed (turn : HostTurn) (p : U64) (count i : Nat) (s : Sockets) :
    Ends (pollFrom turn p i count) s fun _ s' => Unharmed s s' ∧ s'.mem = s.mem := by
  induction count generalizing i s with
  | zero => exact (ends_pure _).mpr ⟨Unharmed.refl s, rfl⟩
  | succ count ih =>
    unfold pollFrom
    refine ends_query (fun handle _ => ?_) fun e => ⟨Unharmed.refl s, rfl⟩
    refine ends_query (fun want _ => ?_) fun e => ⟨Unharmed.refl s, rfl⟩
    obtain ⟨flags, s₁, hRun, hFirst, hMem⟩ := afdReadiness_unharmed handle (turn.probes i) s
    rw [ends_ok hRun]
    refine ends_bind.mpr ((ih (i + 1) s₁).mono fun r s₂ hRest => ?_)
    have hBoth : Unharmed s s₂ ∧ s₂.mem = s.mem := ⟨hFirst.trans hRest.1, hRest.2.trans hMem⟩
    cases r with
    | error e => exact hBoth
    | ok rest => exact ⟨_, rfl, hBoth⟩

theorem afdSelect_answers : Ends (afdSelect turn req) s (Answers s iosb) := by
  unfold afdSelect
  split
  · exact ends_here _
  · refine ends_query (fun timeout _ => ?_) fun e => answers_same s iosb _
    refine ends_query (fun count _ => ?_) fun e => answers_same s iosb _
    refine ends_bind.mpr ((pollFrom_unharmed turn req.inBuf _ 0 s).mono fun r s₁ hPolled => ?_)
    obtain ⟨hUnharmed, hMem⟩ := hPolled
    cases r with
    | error e => exact hUnharmed
    | ok ready =>
      rw [then_ok]
      split
      · exact (ends_pure _).mpr ⟨hUnharmed, hMem⟩
      · refine ends_onMem (total_bind (total_tellReady _ _ _) (fun _ => total_step _) _) (fun _ mem _ => ?_) fun e mem _ => ?_
        · exact answers_done (hUnharmed.trans (Unharmed.withMem s₁ mem)) _ _
        · exact hUnharmed.trans (Unharmed.withMem s₁ mem)

/-! ## The tries that change a socket -/

theorem answers_set (hSock : s.sockets handle = some k) (h : k' = k ∨ Told (pure 0) iosb s.mem) :
    Ends (pure OK) (s.setSocket handle k') (Answers s iosb) := by
  refine (ends_pure OK).mpr ?_
  rcases h with rfl | ⟨info, mid, mem', hReply, hTold⟩
  · rw [setSocket_same hSock]
    exact answers_same s iosb _
  · cases hReply
    exact Or.inr ⟨rfl, mem', hTold⟩

theorem answers_told {reply : Fallible VirtualMemory EmuError U64} (hMem : s'.mem = s.mem) (h : Told reply iosb s.mem) :
    Ends (onMem reply >>= fun info => pure (.Done STATUS_SUCCESS info)) s' (Answers s iosb) := by
  obtain ⟨info, mid, mem', hReply, hTold⟩ := h
  rw [ends_ok (onMem_run (by rw [hMem]; exact hReply))]
  exact (ends_pure _).mpr (Or.inr ⟨rfl, mem', hTold⟩)

theorem answers_untold {reply : Fallible VirtualMemory EmuError U64} (hUnharmed : Unharmed s s') (hReply : Total reply) :
    Ends (onMem reply >>= fun info => pure (.Done STATUS_SUCCESS info)) s' (Answers s iosb) :=
  ends_onMem (hReply _) (fun _ mem _ => answers_done (hUnharmed.trans (Unharmed.withMem s' mem)) _ _) fun _ mem _ => hUnharmed.trans (Unharmed.withMem s' mem)

theorem afdCreate_answers (hSock : s.sockets req.handle = some k) (h : CreateOrderly s k req iosb) : Ends (afdCreate req) s (Answers s iosb) := by
  unfold afdCreate
  split
  · exact ends_here _
  · rename_i hLong
    refine ends_query (fun a ha => ?_) fun e => answers_same s iosb _
    obtain ⟨family, kind, protocol⟩ := a
    dsimp only
    split
    · exact ends_here _
    · rename_i hSupported
      rw [ends_socketMut hSock, ends_setSocket]
      exact answers_set hSock (h family kind protocol hLong ha (by simpa using hSupported))

theorem total_bindReply (req : Request) (addr : Option SocketAddr) : Total (bindReply req addr) := by
  cases addr with
  | none => exact total_pure _
  | some addr => exact total_bind (total_writeSockaddr _ _ _) fun _ => total_pure _

theorem afdBind_answers (hSock : s.sockets req.handle = some k) (h : BindOrderly s k req iosb turn) : Ends (afdBind turn req) s (Answers s iosb) := by
  unfold afdBind
  refine ends_query (fun a ha => ?_) fun e => answers_same s iosb _
  cases a with
  | none => exact ends_here _
  | some addr =>
    dsimp only
    split
    · exact ends_here _
    · rw [ends_socketMut hSock]
      split
      · exact ends_here _
      · rename_i ep hHost
        rw [ends_setSocket]
        rcases h addr ep ha hHost with hSame | hTold
        · rw [hSame, setSocket_same hSock]
          exact answers_untold (Unharmed.refl s) (total_bindReply _ _)
        · exact answers_told rfl hTold

theorem afdListen_answers (hSock : s.sockets req.handle = some k) (h : ListenOrderly s k req iosb) : Ends (afdListen req) s (Answers s iosb) := by
  unfold afdListen
  split
  · exact ends_here _
  · rename_i hLong
    refine ends_query (fun backlog hBacklog => ?_) fun e => answers_same s iosb _
    rw [ends_socketMut hSock]
    split
    · exact ends_here _
    · rename_i hListener
      rw [ends_setSocket]
      exact answers_set hSock (h backlog hLong hBacklog (by simpa using hListener))

theorem connectHost_before {addr : SocketAddr} {before : Socket} {made : Except ErrorKind Socket} (h : connectHost turn k addr = .ok (before, made))
    (hListener : k.isListener = false) : before = k := by
  unfold connectHost at h
  unfold Socket.isListener at hListener
  split at h
  · cases h
  · rename_i hEp
    rw [hEp] at hListener
    cases hListener
  · cases h
    rfl
  · split at h
    · cases h
      rfl
    · cases h
      rfl

theorem setSocket_setSocket (s : Sockets) (handle : U64) (a b : Socket) : (s.setSocket handle a).setSocket handle b = s.setSocket handle b := by
  unfold Sockets.setSocket
  rw [Function.update_idem]

theorem afdConnect_answers (hSock : s.sockets req.handle = some k) (h : ConnectOrderly s k req iosb turn) : Ends (afdConnect turn req) s (Answers s iosb) := by
  unfold afdConnect
  split
  · exact ends_here _
  · rename_i hLong
    refine ends_query (fun a ha => ?_) fun e => answers_same s iosb _
    cases a with
    | none => exact ends_here _
    | some addr =>
      dsimp only
      split
      · exact ends_here _
      · rw [ends_socketMut hSock]
        split
        · exact ends_here _
        · rename_i before made hHost
          obtain ⟨hRefused, hMade⟩ := h addr before made hLong ha hHost
          rw [ends_setSocket]
          cases made with
          | error e =>
            rw [connectHost_before hHost (hRefused e rfl), setSocket_same hSock]
            exact ends_here _
          | ok k' =>
            dsimp only
            rw [ends_setSocket, setSocket_setSocket]
            exact answers_set hSock (hMade k' rfl)

theorem handOver_answers {stream : Nat} (hMem : s'.mem = s.mem) (hNext : s'.nextHandle = s.nextHandle) (hSock : s'.sockets req.handle = some k)
    (h : Told (acceptReply req s.nextHandle) iosb s.mem) : Ends (handOver req stream) s' (Answers s iosb) := by
  unfold handOver
  rw [ends_socketMut hSock, ends_ok rfl, ends_setSocket, hNext]
  exact answers_told hMem h

theorem afdAccept_answers (hSock : s.sockets req.handle = some k) (h : AcceptOrderly s k req iosb turn) : Ends (afdAccept turn req) s (Answers s iosb) := by
  unfold afdAccept
  split
  · exact ends_here _
  · rename_i hLong
    rw [ends_socketMut hSock]
    cases hPending : k.pending with
    | cons stream rest =>
      dsimp only
      rw [ends_setSocket]
      have hSome : k.pending ≠ [] := by
        rw [hPending]
        exact List.cons_ne_nil _ _
      exact handOver_answers rfl rfl (Function.update_self ..) (h hLong (.inl hSome))
    | nil =>
      dsimp only
      split
      · exact ends_here _
      · rename_i hListener
        cases hAccept : turn.accept with
        | error e => exact ends_here _
        | ok stream =>
          dsimp only
          rw [ends_modify_bind]
          exact handOver_answers rfl rfl hSock (h hLong (.inr ⟨by simpa using hListener, stream, hAccept⟩))

theorem draw_nil (s : Sockets) (handle : U64) : s.draw handle [] = s := by
  unfold Sockets.draw
  rw [List.append_nil, Function.update_eq_self]

theorem total_scatter (bufs : List WsaBuf) (data : List U8) : Total (scatter bufs data) := by
  induction bufs generalizing data with
  | nil => exact total_pure _
  | cons b bufs ih =>
    unfold scatter
    refine total_ite (total_pure _) ?_
    split
    · exact total_bind (total_step _) fun _ => ih _
    · exact ih _

theorem total_tellSender (args : RecvArgs) (sender : Option SocketAddr) : Total (tellSender args sender) := by
  cases sender with
  | none => exact total_pure _
  | some addr =>
    refine total_ite (total_pure _) (total_bind (total_ite (total_step _) (total_pure _)) fun cap => total_bind (total_writeSockaddr _ _ _) fun written => ?_)
    cases written with
    | none => exact total_pure _
    | some n => exact total_ite (total_step _) (total_pure _)

theorem total_recvReply (args : RecvArgs) (data : List U8) (sender : Option SocketAddr) : Total (recvReply args data sender) :=
  total_bind (total_scatter _ _) fun _ => total_bind (total_tellSender _ _) fun _ => total_pure _

theorem afdRecv_answers (hSock : s.sockets req.handle = some k) (h : RecvOrderly s k req iosb turn) : Ends (afdRecv turn req) s (Answers s iosb) := by
  unfold afdRecv
  split
  · exact ends_here _
  · rename_i hLong
    refine ends_query (fun args hArgs => ?_) fun e => answers_same s iosb _
    rw [ends_socketMut hSock]
    split
    · exact ends_here _
    · rename_i hOpen
      cases hHost : k.receive turn (capacity args.bufs) with
      | error r => exact ends_here _
      | ok got =>
        obtain ⟨data, sender⟩ := got
        dsimp only
        rw [ends_modify_bind]
        rcases h args data sender hLong hArgs (by simpa using hOpen) hHost with rfl | hTold
        · rw [draw_nil]
          split
          · exact ends_here _
          · exact answers_untold (Unharmed.refl s) (total_recvReply _ _ _)
        · split
          · rename_i hNone
            rw [hNone.1, draw_nil]
            exact ends_here _
          · exact answers_told rfl hTold

theorem afdShutdown_answers (hSock : s.sockets req.handle = some k) (h : ShutdownOrderly s k req iosb turn) : Ends (afdShutdown turn req) s (Answers s iosb) := by
  unfold afdShutdown
  split
  · exact ends_here _
  · rename_i hLong
    refine ends_query (fun how hHow => ?_) fun e => answers_same s iosb _
    rw [ends_socketMut hSock, ends_setSocket]
    rcases h how hLong hHow with hSame | ⟨hHost, hTold⟩
    · rw [hSame, setSocket_same hSock]
      exact ends_here _
    · rw [hHost]
      exact answers_set hSock (.inr hTold)

theorem afdDispatch_answers (hSock : s.sockets req.handle = some k) (h : Orderly s req iosb turn) : Ends (afdDispatch turn req) s (Answers s iosb) := by
  have hHere := h k hSock
  unfold afdDispatch
  cases hCode : ofCode req.code with
  | none => exact ends_here _
  | some code =>
    rw [hCode] at hHere
    cases code with
    | bind => exact afdBind_answers hSock hHere
    | startListen => exact afdListen_answers hSock hHere
    | select => exact afdSelect_answers
    | getSockName => exact afdGetName_answers hSock false
    | wineCreate => exact afdCreate_answers hSock hHere
    | wineAccept => exact afdAccept_answers hSock hHere
    | wineConnect => exact afdConnect_answers hSock hHere
    | wineShutdown => exact afdShutdown_answers hSock hHere
    | wineRecvmsg => exact afdRecv_answers hSock hHere
    | wineSendmsg => exact afdSend_answers hSock
    | wineOp210 => exact ends_here _
    | wineGetPeerName => exact afdGetName_answers hSock true
    | wineGetSocketInfo => exact afdGetSocketInfo_answers hSock

/-! ## What is received -/

def pieces : List WsaBuf → List U8 → List (U64 × List U8)
  | [], _ => []
  | b :: bufs, data => (b.ptr, data.take b.len) :: pieces bufs (data.drop b.len)

theorem pieces_inOrder (h : data.length ≤ capacity bufs) : (pieces bufs data).flatMap (·.2) = data := by
  induction bufs generalizing data with
  | nil =>
    rw [List.length_eq_zero_iff.mp (Nat.le_zero.mp h)]
    rfl
  | cons b bufs ih =>
    unfold pieces
    rw [List.flatMap_cons, ih, List.take_append_drop]
    unfold capacity at h ⊢
    rw [List.map_cons, List.sum_cons] at h
    rw [List.length_drop]
    omega

theorem pieces_within (bufs : List WsaBuf) (data : List U8) : List.Forall₂ (fun b p => p.1 = b.ptr ∧ p.2.length ≤ b.len) bufs (pieces bufs data) := by
  induction bufs generalizing data with
  | nil => exact .nil
  | cons b bufs ih => exact .cons ⟨rfl, List.length_take_le ..⟩ (ih _)

theorem pieces_nil (bufs : List WsaBuf) (mem : VirtualMemory) : VirtualMemory.writeAll (pieces bufs []) mem = .ok mem := by
  induction bufs with
  | nil => rfl
  | cons b bufs ih =>
    unfold pieces
    rw [List.take_nil, List.drop_nil]
    exact ih

theorem scatter_pieces (h : scatter bufs data mem = some (.ok (), mem')) : VirtualMemory.writeAll (pieces bufs data) mem = .ok mem' := by
  induction bufs generalizing data mem with
  | nil =>
    cases h
    rfl
  | cons b bufs ih =>
    unfold scatter at h
    split at h
    · rename_i hNone
      subst hNone
      cases h
      exact pieces_nil (b :: bufs) _
    · split at h
      · obtain ⟨_, mid, hWrite, hRest⟩ := bind_ok_run h
        have hPut := step_ok_run hWrite
        cases hMem : mem.write b.ptr (data.take b.len) with
        | error e =>
          rw [hMem] at hPut
          cases hPut
        | ok mid' =>
          rw [hMem] at hPut
          cases hPut
          exact (VirtualMemory.writeAll_of_write (p := (b.ptr, data.take b.len)) hMem).trans (ih hRest)
      · rename_i hZero
        have hEmpty : data.take b.len = [] := by
          refine List.length_eq_zero_iff.mp ?_
          rw [List.length_take]
          exact not_not.mp hZero
        have hHere : mem.write b.ptr (data.take b.len) = .ok mem := by
          rw [hEmpty]
          rfl
        exact (VirtualMemory.writeAll_of_write (p := (b.ptr, data.take b.len)) hHere).trans (ih h)

/-- A receive that succeeds: the bytes drawn from the host lie in the buffers, in order, and nowhere
else; then the sender and the status are told. -/
structure Received (s : Sockets) (req : Request) (iosb : U64) (args : RecvArgs) (data : List U8) (mid told : VirtualMemory) (s' : Sockets) : Prop where
  asked : recvArgs req s.mem = .ok args
  drawn : s'.drawn = Function.update s.drawn req.handle (s.drawn req.handle ++ data)
  inOrder : (pieces args.bufs data).flatMap (·.2) = data
  within : List.Forall₂ (fun b p => p.1 = b.ptr ∧ p.2.length ≤ b.len) args.bufs (pieces args.bufs data)
  written : VirtualMemory.writeAll (pieces args.bufs data) s.mem = .ok mid
  outside : VirtualMemory.WellFormed s.mem → ∀ a : U64,
    (∀ p ∈ pieces args.bufs data, a.toNat < p.1.toNat ∨ p.1.toNat + p.2.length ≤ a.toNat) → mid.peek a = s.mem.peek a
  inside : VirtualMemory.WellFormed s.mem →
    (pieces args.bufs data).Pairwise (fun p q => Apart q.1 q.2.length p.1 p.2.length) →
    ∀ p ∈ pieces args.bufs data, mid.Lies p.1 p.2
  sender : ∃ sender, tellSender args sender mid = some (.ok (), told)
  status : writeIosb iosb STATUS_SUCCESS (BitVec.ofNat 64 data.length) told = some (.ok (), s'.mem)

def Drawn (s : Sockets) (req : Request) (info : U64) (s' : Sockets) : Prop :=
  ∃ args data sender mid, recvArgs req s.mem = .ok args ∧ data.length ≤ capacity args.bufs ∧ info = BitVec.ofNat 64 data.length ∧
    s'.drawn = Function.update s.drawn req.handle (s.drawn req.handle ++ data) ∧
    scatter args.bufs data s.mem = some (.ok (), mid) ∧ tellSender args sender mid = some (.ok (), s'.mem)

theorem receive_length {cap : Nat} {sender : Option SocketAddr} (h : k.receive turn cap = .ok (data, sender)) : data.length ≤ cap := by
  unfold Socket.receive at h
  split at h
  · split at h
    · cases h
      exact List.length_take_le ..
    · cases h
  · split at h
    · cases h
      exact List.length_take_le ..
    · cases h
  · cases h

theorem scatter_nil (bufs : List WsaBuf) (mem : VirtualMemory) : scatter bufs [] mem = some (.ok (), mem) := by
  cases bufs with
  | nil => rfl
  | cons b bufs =>
    unfold scatter
    rw [if_pos rfl]
    rfl

theorem drawn_nothing {args : RecvArgs} (hArgs : recvArgs req s.mem = .ok args) : Drawn s req 0 s := by
  refine ⟨args, [], none, s.mem, hArgs, Nat.zero_le _, rfl, ?_, scatter_nil _ _, rfl⟩
  rw [List.append_nil, Function.update_eq_self]

theorem statusFor_ne (e : ErrorKind) : statusFor e ≠ STATUS_SUCCESS := by
  cases e <;> decide

theorem refusal_ne (e : ErrorKind) (info : U64) : refusal e ≠ .Done STATUS_SUCCESS info := by
  unfold refusal
  split
  · rintro ⟨⟩
  · exact fun h => statusFor_ne e (OpResult.Done.inj h).1

theorem receive_error {cap : Nat} : k.receive turn cap ≠ .error (.Done STATUS_SUCCESS info) := by
  have hOther : OpResult.Done STATUS_INVALID_CONNECTION 0 ≠ .Done STATUS_SUCCESS info := fun h => by
    have hStatus := (OpResult.Done.inj h).1
    exact absurd hStatus (by decide)
  unfold Socket.receive
  split
  · split
    · rintro ⟨⟩
    · exact fun h => refusal_ne _ _ (Except.error.inj h)
  · split
    · rintro ⟨⟩
    · exact fun h => refusal_ne _ _ (Except.error.inj h)
  · exact fun h => hOther (Except.error.inj h)

theorem query_run {f : VirtualMemory → Result α} {a : α} (h : query f s = some (.ok a, s')) : f s.mem = .ok a ∧ s' = s := by
  have hStep := step_ok_run h
  cases hf : f s.mem with
  | error e =>
    rw [hf] at hStep
    cases hStep
  | ok b =>
    rw [hf] at hStep
    cases hStep
    exact ⟨rfl, rfl⟩

theorem socketMut_run (h : socketMut handle s = some (.ok k, s')) : s.sockets handle = some k ∧ s' = s := by
  obtain ⟨k', hThere, hSame⟩ := Option.map_eq_some_iff.mp h
  cases hSame
  exact ⟨hThere, rfl⟩

theorem onMem_ok_run {a : α} (h : onMem x s = some (.ok a, s')) : ∃ mem, x s.mem = some (.ok a, mem) ∧ s' = s.withMem mem := by
  obtain ⟨⟨r, mem⟩, hx, hSame⟩ := Option.map_eq_some_iff.mp h
  cases hSame
  exact ⟨mem, hx, rfl⟩

theorem afdRecv_drawn (h : afdRecv turn req s = some (.ok (.Done STATUS_SUCCESS info), s')) : Drawn s req info s' := by
  unfold afdRecv at h
  split at h
  · cases h
  · obtain ⟨args, s₁, hQuery, hAsked⟩ := bind_ok_run h
    obtain ⟨hArgs, rfl⟩ := query_run hQuery
    obtain ⟨k, s₂, hSock, hHeld⟩ := bind_ok_run hAsked
    obtain ⟨-, rfl⟩ := socketMut_run hSock
    split at hHeld
    · cases hHeld
      exact drawn_nothing hArgs
    · cases hHost : k.receive turn (capacity args.bufs) with
      | error r =>
        rw [hHost] at hHeld
        cases hHeld
        exact absurd hHost receive_error
      | ok got =>
        obtain ⟨data, sender⟩ := got
        rw [hHost] at hHeld
        obtain ⟨_, s₃, hDraw, hLast⟩ := bind_ok_run hHeld
        obtain rfl : s₂.draw req.handle data = s₃ := (Prod.mk.inj (Option.some.inj hDraw)).2
        split at hLast
        · rename_i hNone
          rw [hNone.1, draw_nil] at hLast
          cases hLast
          exact drawn_nothing hArgs
        · obtain ⟨n, s₄, hReply, hDone⟩ := bind_ok_run hLast
          cases hDone
          obtain ⟨mem, hRun, rfl⟩ := onMem_ok_run hReply
          obtain ⟨_, mid, hScatter, hTell⟩ := bind_ok_run hRun
          obtain ⟨_, told, hSender, hCount⟩ := bind_ok_run hTell
          cases hCount
          exact ⟨args, data, sender, mid, hArgs, receive_length hHost, rfl, rfl, hScatter, hSender⟩

theorem Drawn.received (h : Drawn s req info s') (hStatus : writeIosb iosb STATUS_SUCCESS info s'.mem = some (.ok (), mem)) :
    ∃ args data mid told, Received s req iosb args data mid told (s'.withMem mem) := by
  obtain ⟨args, data, sender, mid, hArgs, hFits, rfl, hDrawn, hScatter, hSender⟩ := h
  have hWritten := scatter_pieces hScatter
  exact ⟨args, data, mid, s'.mem,
    { asked := hArgs
      drawn := hDrawn
      inOrder := pieces_inOrder hFits
      within := pieces_within _ _
      written := hWritten
      outside := fun hWf a hOut => VirtualMemory.writeAll_outside hWf hWritten hOut
      inside := fun hWf hApart => VirtualMemory.writeAll_lies hWf hWritten hApart
      sender := ⟨sender, hSender⟩
      status := hStatus }⟩

/-! ## One call -/

/-- The try is orderly, and so is each that comes after one for which it had to wait. -/
def EachOrderly (req : Request) (iosb : U64) : List HostTurn → Sockets → Prop
  | [], _ => True
  | turn :: turns, s => Orderly s req iosb turn ∧ ∀ s', afdDispatch turn req s = some (.ok .WouldBlock, s') → EachOrderly req iosb turns s'

def Fails (r : Except EmuError U32) : Prop := r ≠ .ok STATUS_SUCCESS ∧ r ≠ .ok STATUS_PENDING

/-- A call that fails leaves the sockets alone, and a receive that succeeds gives what was received. -/
structure Served (s : Sockets) (req : Request) (iosb : U64) (r : Except EmuError U32) (s' : Sockets) : Prop where
  failure : Fails r → Unharmed s s'
  received : ofCode req.code = some .wineRecvmsg → r = .ok STATUS_SUCCESS → ∃ args data mid told, Received s req iosb args data mid told s'

theorem Served.of_unharmed {r : Except EmuError U32} (h : Unharmed s s') (hNot : r ≠ .ok STATUS_SUCCESS) : Served s req iosb r s' :=
  ⟨fun _ => h, fun _ hOk => absurd hOk hNot⟩

theorem not_success (e : EmuError) : (Except.error e : Except EmuError U32) ≠ .ok STATUS_SUCCESS := by
  rintro ⟨⟩

theorem Served.before {r : Except EmuError U32} (hUnharmed : Unharmed s s') (hMem : s'.mem = s.mem) (h : Served s' req iosb r s'') : Served s req iosb r s'' where
  failure hFails := hUnharmed.trans (h.failure hFails)
  received hCode hOk := by
    obtain ⟨args, data, mid, told, hReceived⟩ := h.received hCode hOk
    have hDrawn := hReceived.drawn
    rw [hUnharmed.drawn] at hDrawn
    exact ⟨args, data, mid, told,
      { asked := hMem ▸ hReceived.asked
        drawn := hDrawn
        inOrder := hReceived.inOrder
        within := hReceived.within
        written := hMem ▸ hReceived.written
        outside := hMem ▸ hReceived.outside
        inside := hMem ▸ hReceived.inside
        sender := hReceived.sender
        status := hReceived.status }⟩

theorem finish_ends (iosb : U64) (status : U32) (info : U64) (s : Sockets) : Ends (finish iosb status info) s fun r s' =>
    ∃ mem, s' = s.withMem mem ∧ (r = .ok status ∧ writeIosb iosb status info s.mem = some (.ok (), mem) ∨
      ∃ e, r = .error e ∧ writeIosb iosb status info s.mem = some (.error e, mem)) := by
  unfold finish
  refine ends_onMem (total_writeIosb iosb status info _) (fun _ mem hDone => ?_) fun e mem hFailed => ?_
  · exact (ends_pure _).mpr ⟨mem, rfl, .inl ⟨rfl, hDone⟩⟩
  · exact ⟨mem, rfl, .inr ⟨e, rfl, hFailed⟩⟩

theorem finish_served (h : Answers s iosb (.ok (.Done status info)) s')
    (hDrawn : ofCode req.code = some .wineRecvmsg → status = STATUS_SUCCESS → Drawn s req info s') :
    Ends (finish iosb status info) s' (Served s req iosb) := by
  refine (finish_ends iosb status info s').mono fun r s'' hEnd => ?_
  obtain ⟨mem, rfl, hEnd⟩ := hEnd
  constructor
  · intro hFails
    rcases h with hUnharmed | ⟨rfl, mem', hTold⟩
    · exact hUnharmed.trans (.withMem s' mem)
    · rcases hEnd with ⟨hOk, -⟩ | ⟨e, -, hFailed⟩
      · exact absurd hOk hFails.1
      · cases hFailed.symm.trans hTold
  · intro hCode hOk
    rcases hEnd with ⟨hStatus, hTold⟩ | ⟨e, hError, -⟩
    · obtain rfl : status = STATUS_SUCCESS := Except.ok.inj (hStatus.symm.trans hOk)
      exact (hDrawn hCode rfl).received hTold
    · exact absurd (hError.symm.trans hOk) (not_success e)

theorem finish_refused (h : Unharmed s s') (hNot : status ≠ STATUS_SUCCESS) (info : U64) : Ends (finish iosb status info) s' (Served s req iosb) :=
  finish_served (Or.inl h) fun _ hOk => absurd hOk hNot

theorem afdWaitExpired_served (req : Request) (iosb : U64) (s : Sockets) : Ends (afdWaitExpired req iosb) s (Served s req iosb) := by
  unfold afdWaitExpired
  split
  · rename_i hSelect
    refine ends_onMem (total_step _ _) (fun _ mem _ => ?_) fun e mem _ => .of_unharmed (.withMem s mem) (not_success e)
    refine finish_served (Or.inl (.withMem s mem)) fun hCode _ => ?_
    rw [hSelect.1] at hCode
    cases hCode
  · exact finish_refused (.refl s) (by decide) _

theorem unharmed_socket (h : Unharmed s s') (hSock : s.sockets handle = some k) : ∃ k', s'.sockets handle = some k' := by
  obtain ⟨new, -, hKept⟩ := h.kept
  exact ⟨_, by rw [hKept, hSock]; rfl⟩

theorem dispatch_drawn (hRun : afdDispatch turn req s = some (.ok (.Done status info), s')) (hCode : ofCode req.code = some .wineRecvmsg)
    (hOk : status = STATUS_SUCCESS) : Drawn s req info s' := by
  subst hOk
  unfold afdDispatch at hRun
  rw [hCode] at hRun
  exact afdRecv_drawn hRun

theorem afdPoll_served (hSock : s.sockets req.handle = some k) (h : EachOrderly req iosb turns s) :
    Ends (afdPoll req iosb turns) s (Served s req iosb) := by
  induction turns generalizing s k with
  | nil => exact afdWaitExpired_served req iosb s
  | cons turn turns ih =>
    obtain ⟨hHere, hRest⟩ := h
    obtain ⟨⟨r, s₁⟩, hRun, hAnswers⟩ := afdDispatch_answers hSock hHere
    unfold afdPoll
    cases r with
    | error e => exact (ends_error hRun).mpr (.of_unharmed hAnswers (not_success e))
    | ok r =>
      rw [ends_ok hRun]
      cases r with
      | Done status info => exact finish_served hAnswers (dispatch_drawn hRun)
      | WouldBlock =>
        obtain ⟨k', hSock'⟩ := unharmed_socket hAnswers.1 hSock
        exact (ih hSock' (hRest s₁ hRun)).mono fun r s' hEnd => hEnd.before hAnswers.1 hAnswers.2

theorem afdBlock_served (hSock : s.sockets req.handle = some k) (switched : Bool) (h : EachOrderly req iosb turns s) :
    Ends (afdBlock req iosb switched turns) s (Served s req iosb) := by
  unfold afdBlock
  split
  · exact (ends_pure _).mpr (.of_unharmed (.refl s) (by decide))
  · unfold afdWaitLimit
    split
    · exact afdPoll_served hSock h
    · exact ends_query (fun _ _ => afdPoll_served hSock h) fun e => .of_unharmed (.refl s) (not_success e)

theorem ntDeviceIoControlFile_served (known switched : Bool) (h : EachOrderly req iosb (turn :: turns) s) :
    Ends (ntDeviceIoControlFile req iosb known switched turn turns) s (Served s req iosb) := by
  unfold ntDeviceIoControlFile
  rw [ends_ok rfl]
  cases hSock : s.sockets req.handle with
  | none => exact finish_refused (.refl s) (by cases known <;> decide) _
  | some k =>
    obtain ⟨hHere, hRest⟩ := h
    obtain ⟨⟨r, s₁⟩, hRun, hAnswers⟩ := afdDispatch_answers hSock hHere
    dsimp only
    cases r with
    | error e => exact (ends_error hRun).mpr (.of_unharmed hAnswers (not_success e))
    | ok r =>
      rw [ends_ok hRun]
      cases r with
      | Done status info => exact finish_served hAnswers (dispatch_drawn hRun)
      | WouldBlock =>
        obtain ⟨k', hSock'⟩ := unharmed_socket hAnswers.1 hSock
        exact (afdBlock_served hSock' switched (hRest s₁ hRun)).mono fun r s' hEnd => hEnd.before hAnswers.1 hAnswers.2

/-! ## Every run -/

inductive Call where
  | ioctl (req : Request) (iosb : U64) (known switched : Bool) (turn : HostTurn) (turns : List HostTurn)
  | openAfd (named : Bool) (handlePtr iosb : U64)
  | close (handle : U64)

def OpenOrderly (s : Sockets) (handlePtr iosb : U64) : Prop := Told (store handlePtr 8 s.nextHandle >>= fun _ => pure 1) iosb s.mem

def Call.Orderly (s : Sockets) : Call → Prop
  | .ioctl req iosb _ _ turn turns => EachOrderly req iosb (turn :: turns) s
  | .openAfd named handlePtr iosb => named = true → handlePtr ≠ 0 → OpenOrderly s handlePtr iosb
  | .close _ => True

def Opened (s : Sockets) (r : Except EmuError (Option U32)) (s' : Sockets) : Prop := r ≠ .ok (some STATUS_SUCCESS) → Unharmed s s'

theorem ntOpenAfd_opened (named : Bool) (handlePtr : U64) (h : named = true → handlePtr ≠ 0 → OpenOrderly s handlePtr iosb) :
    Ends (ntOpenAfd named handlePtr iosb) s (Opened s) := by
  unfold ntOpenAfd
  split
  · exact (ends_pure _).mpr fun _ => .refl s
  · rename_i hNamed
    split
    · exact (ends_pure _).mpr fun _ => .refl s
    · rename_i hPtr
      obtain ⟨info, mid, mem', hStore, hTold⟩ := h (by simpa using hNamed) hPtr
      obtain ⟨_, mem₁, hFirst, hDone⟩ := bind_ok_run hStore
      cases hDone
      rw [ends_ok rfl, ends_setSocket]
      have hReply : (store handlePtr 8 s.nextHandle >>= fun _ => writeIosb iosb STATUS_SUCCESS 1) s.mem = some (.ok (), mem') :=
        (bind_of_ok hFirst).trans hTold
      refine ends_onMem ⟨_, hReply⟩ (fun _ mem _ => (ends_pure _).mpr fun hNot => absurd rfl hNot) fun e mem hFailed => ?_
      cases hReply.symm.trans hFailed

/-- Each of the calls does what it is to do; the guest may change its memory before each. -/
def EachServed : Sockets → List (Call × VirtualMemory) → Prop
  | _, [] => True
  | s, (.ioctl req iosb known switched turn turns, mem) :: rest =>
    Ends (ntDeviceIoControlFile req iosb known switched turn turns) (s.withMem mem) fun r s' => Served (s.withMem mem) req iosb r s' ∧ EachServed s' rest
  | s, (.openAfd named handlePtr iosb, mem) :: rest =>
    Ends (ntOpenAfd named handlePtr iosb) (s.withMem mem) fun r s' => Opened (s.withMem mem) r s' ∧ EachServed s' rest
  | s, (.close handle, mem) :: rest => EachServed (closeSocket (s.withMem mem) handle) rest

def AllOrderly : Sockets → List (Call × VirtualMemory) → Prop
  | _, [] => True
  | s, (.ioctl req iosb known switched turn turns, mem) :: rest => (Call.ioctl req iosb known switched turn turns).Orderly (s.withMem mem) ∧
    ∀ r s', ntDeviceIoControlFile req iosb known switched turn turns (s.withMem mem) = some (r, s') → AllOrderly s' rest
  | s, (.openAfd named handlePtr iosb, mem) :: rest => (Call.openAfd named handlePtr iosb).Orderly (s.withMem mem) ∧
    ∀ r s', ntOpenAfd named handlePtr iosb (s.withMem mem) = some (r, s') → AllOrderly s' rest
  | s, (.close handle, mem) :: rest => AllOrderly (closeSocket (s.withMem mem) handle) rest

/-- A run of calls on any handles. -/
theorem served_of_orderly (s : Sockets) (calls : List (Call × VirtualMemory)) (h : AllOrderly s calls) : EachServed s calls := by
  induction calls generalizing s with
  | nil => exact trivial
  | cons call rest ih =>
    obtain ⟨call, mem⟩ := call
    cases call with
    | ioctl req iosb known switched turn turns =>
      obtain ⟨hOrderly, hRest⟩ := h
      obtain ⟨p, hRun, hServed⟩ := ntDeviceIoControlFile_served known switched hOrderly
      exact ⟨p, hRun, hServed, ih p.2 (hRest p.1 p.2 hRun)⟩
    | openAfd named handlePtr iosb =>
      obtain ⟨hOrderly, hRest⟩ := h
      obtain ⟨p, hRun, hOpened⟩ := ntOpenAfd_opened named handlePtr hOrderly
      exact ⟨p, hRun, hOpened, ih p.2 (hRest p.1 p.2 hRun)⟩
    | close handle => exact ih _ h

/-! ## A socket that is shut down too early -/

def shutStart (ep : Endpoint) : Sockets where
  mem := (do
    let mem ← VirtualMemory.new.map true ⟨"stack", 0x1000, 0x1000, Perm.RW⟩
    mem.writeUint 0x1000 4 1).toOption.getD .new
  sockets := fun handle => if handle = 0x100 then some { Socket.new with family := AF_INET, kind := SOCK_DGRAM, ep := ep } else none
  nextHandle := 0x104
  drawn := fun _ => []
  accepted := []

def quietTurn : HostTurn where
  udpBind := .error .Other
  tcpBind := .error .Other
  tcpConnect := .error .Other
  nonblocking := .ok ()
  udpConnect := .error .Other
  name := none
  accept := .error .WouldBlock
  read := .error .WouldBlock
  recvFrom := .error .WouldBlock
  send := .error .WouldBlock
  shutdown := .ok ()
  probes := fun _ => ⟨.error .WouldBlock, .error .WouldBlock⟩

def shutRequest : Request := ⟨0x100, 0x00120330, 0x1000, 4, 0, 0⟩

def shutCall : Call := .ioctl shutRequest 0 false false quietTurn []

/-- A socket that is bound. -/
theorem served_of_shutdown : EachServed (shutStart (.Datagram 7)) [(shutCall, (shutStart (.Datagram 7)).mem), (.close 0x100, .new)] := by
  refine served_of_orderly _ _ ⟨⟨fun k hSock how _ _ => .inr ⟨?_, 0, (shutStart (.Datagram 7)).mem, _, rfl, rfl⟩, fun _ _ => trivial⟩, fun _ _ _ => trivial⟩
  obtain rfl : { Socket.new with family := AF_INET, kind := SOCK_DGRAM, ep := .Datagram 7 } = k := Option.some.inj hSock
  rfl

/-- The request is refused, and from then on the socket does not send. -/
theorem served_misses :
    ((ntDeviceIoControlFile shutRequest 0 false false quietTurn [] (shutStart .Unbound)).map fun p =>
      (p.1.toOption, (p.2.sockets 0x100).map (·.wrShutdown))) = some (some STATUS_INVALID_CONNECTION, some true) ∧
      ¬EachServed (shutStart .Unbound) [(shutCall, (shutStart .Unbound).mem)] := by
  have hEnd : ((ntDeviceIoControlFile shutRequest 0 false false quietTurn [] (shutStart .Unbound)).map fun p =>
      (p.1.toOption, (p.2.sockets 0x100).map (·.wrShutdown))) = some (some STATUS_INVALID_CONNECTION, some true) := by decide
  refine ⟨hEnd, ?_⟩
  rintro ⟨⟨r, s'⟩, hRun, hServed, -⟩
  rw [show (shutStart .Unbound).withMem (shutStart .Unbound).mem = shutStart .Unbound from rfl] at hRun hServed
  rw [hRun] at hEnd
  obtain ⟨hStatus, hShut⟩ := Prod.mk.inj (Option.some.inj hEnd)
  have hFails : Fails r := by
    constructor
    · rintro rfl
      cases hStatus
    · rintro rfl
      cases hStatus
  obtain ⟨new, -, hKept⟩ := (hServed.failure hFails).kept
  rw [hKept] at hShut
  cases hShut

end Net

end Exemu.Os
