import Exemu.Core.Memory

/-! # The debugger's control block

Breakpoints and watchpoints as the core keeps them.
-/
namespace Exemu

inductive WatchKind where
  | Read
  | Write
  | ReadWrite
  deriving DecidableEq, Repr

namespace WatchKind

def asU8 : WatchKind → U8
  | .Read => 1
  | .Write => 2
  | .ReadWrite => 3

def covers (self access : WatchKind) : Bool := self.asU8 &&& access.asU8 != 0

end WatchKind

/-- `a.saturating_add(b)`. -/
def satAdd (a b : U64) : U64 := BitVec.ofNat 64 (min (a.toNat + b.toNat) (2 ^ 64 - 1))

structure Watchpoint where
  base : U64
  len : U64
  kind : WatchKind
  deriving DecidableEq, Repr

def Watchpoint.overlaps (self : Watchpoint) (addr len : U64) : Bool :=
  if len = 0 then false
  else decide (addr < satAdd self.base self.len) && decide (self.base < satAdd addr len)

def WATCH_PAGE_SHIFT : Nat := 12
def WATCH_FILTER_MAX_PAGES : U64 := 4096
def ACCESS_PROBE_MAX_PAGES : U64 := 64

def mix64 (x : U64) : U64 :=
  let x := x ^^^ (x >>> 30)
  let x := x * 0xbf58476d1ce4e5b9
  let x := x ^^^ (x >>> 27)
  let x := x * 0x94d049bb133111eb
  x ^^^ (x >>> 31)

def bloomBits (key : U64) : U64 :=
  let h := mix64 key
  (1 <<< (h &&& 63).toNat) ||| (1 <<< ((h >>> 32) &&& 63).toNat)

/-- The pages `first..=last` of an inclusive range. -/
def pagesUpTo (first last : U64) : List U64 :=
  (List.range (last.toNat + 1 - first.toNat)).map fun i => first + BitVec.ofNat 64 i

def watchBits (w : Watchpoint) : U64 :=
  let first := w.base >>> WATCH_PAGE_SHIFT
  let last := satAdd w.base (w.len - 1) >>> WATCH_PAGE_SHIFT
  if last - first ≥ WATCH_FILTER_MAX_PAGES then BitVec.allOnes 64
  else (pagesUpTo first last).foldl (fun acc p => acc ||| bloomBits p) 0

def accessMayHit (filter addr len : U64) : Bool :=
  let first := addr >>> WATCH_PAGE_SHIFT
  let last := satAdd addr (len - 1) >>> WATCH_PAGE_SHIFT
  if last - first ≥ ACCESS_PROBE_MAX_PAGES then true
  else (pagesUpTo first last).any fun p => filter &&& bloomBits p == bloomBits p

structure DebugControl where
  attached : Bool
  generation : U64 := 0
  bpFilter : U64 := 0
  wpFilter : U64 := 0
  /-- sorted, without repetition -/
  breakpoints : List U64 := []
  watchpoints : List Watchpoint := []
  deriving DecidableEq, Repr

namespace DebugControl

def isBreak (self : DebugControl) (addr : U64) : Bool :=
  if !self.attached then false
  else if self.bpFilter &&& bloomBits addr != bloomBits addr then false
  else self.breakpoints.contains addr

def anyBreakpoints (self : DebugControl) : Bool := self.attached && self.bpFilter != 0

def nextBreakAtOrAfter (self : DebugControl) (start : U64) : Option U64 :=
  if !self.anyBreakpoints then none
  else (self.breakpoints.dropWhile fun a => decide (a < start)).head?

def anyWatchpoints (self : DebugControl) : Bool := self.attached && self.wpFilter != 0

def isWatched (self : DebugControl) (addr len : U64) (kind : WatchKind) : Bool :=
  if !self.attached || len == 0 then false
  else if self.wpFilter == 0 || !accessMayHit self.wpFilter addr len then false
  else self.watchpoints.any fun w => w.kind.covers kind && w.overlaps addr len

/-- `None` from `f` stands for the closure that reports no change. -/
def mutate (self : DebugControl)
    (f : List U64 × List Watchpoint → Option (List U64 × List Watchpoint)) : DebugControl :=
  if !self.attached then self
  else
    match f (self.breakpoints, self.watchpoints) with
    | none => self
    | some (bps, wps) =>
      { self with
        breakpoints := bps
        watchpoints := wps
        bpFilter := bps.foldl (fun acc a => acc ||| bloomBits a) 0
        wpFilter := wps.foldl (fun acc w => acc ||| watchBits w) 0
        generation := self.generation + 1 }

def armBreak (self : DebugControl) (addr : U64) : DebugControl :=
  self.mutate fun (bps, wps) =>
    if bps.contains addr then none
    else some (bps.takeWhile (· < addr) ++ addr :: bps.dropWhile (· < addr), wps)

def disarmBreak (self : DebugControl) (addr : U64) : DebugControl :=
  self.mutate fun (bps, wps) =>
    if bps.contains addr then some (bps.erase addr, wps) else none

def armWatch (self : DebugControl) (base len : U64) (kind : WatchKind) : DebugControl :=
  if len = 0 then self
  else self.mutate fun (bps, wps) => some (bps, wps ++ [⟨base, len, kind⟩])

def disarmWatch (self : DebugControl) (base : U64) : DebugControl :=
  self.mutate fun (bps, wps) =>
    let kept := wps.filter fun w => w.base != base
    if kept.length != wps.length then some (bps, kept) else none

theorem not_isWatched_of_not_anyWatchpoints {d : DebugControl} (h : d.anyWatchpoints = false)
    (addr len : U64) (kind : WatchKind) : d.isWatched addr len kind = false := by
  unfold anyWatchpoints at h
  unfold isWatched
  cases hAttached : d.attached with
  | false => simp
  | true =>
    have hFilter : d.wpFilter = 0 := by simpa [hAttached] using h
    simp [hFilter]

end DebugControl
end Exemu
