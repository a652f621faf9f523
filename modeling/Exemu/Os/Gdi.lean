import Exemu.Library.Fallible
import Exemu.Library.Slots
import Exemu.Core.Memory

/-! # GDI objects

Objects live in the slots of a table the guest can read; what the system knows of them besides is
kept in lists by handle or by slot.
-/
namespace Exemu.Os

namespace Gdi

/-! ## Handles -/

namespace GdiType

def DC : U16 := 0x01
def REGION : U16 := 0x04
def PALETTE : U16 := 0x08
def BITMAP : U16 := 0x09
def FONT : U16 := 0x0a
def BRUSH : U16 := 0x10
def PEN : U16 := 0x30

end GdiType

def GDI_TABLE_SLOTS : Nat := 4096
def GDI_ENTRY_IN_USE : U8 := 0x01
def STOCK_SLOT_BASE : Nat := 0x20
def STOCK_SLOT_LAST : Nat := 0x37

def handleOf (ty : U16) (slot : Nat) : U32 := (ty.setWidth 32 <<< 16) ||| (BitVec.ofNat 32 slot &&& 0xFFFF)

def slotOf (handle : U32) : Nat := (handle &&& 0xFFFF).toNat

def STOCK_OBJECTS : List (Nat × U16 × Option U32) :=
  [(0x20, GdiType.BRUSH, some 0x00FFFFFF), (0x21, GdiType.BRUSH, some 0x00C0C0C0), (0x22, GdiType.BRUSH, some 0x00808080),
    (0x23, GdiType.BRUSH, some 0x00404040), (0x24, GdiType.BRUSH, some 0x00000000), (0x25, GdiType.BRUSH, none),
    (0x26, GdiType.PEN, none), (0x27, GdiType.PEN, none), (0x28, GdiType.PEN, none), (0x29, GdiType.FONT, none),
    (0x2a, GdiType.FONT, none), (0x2b, GdiType.FONT, none), (0x2c, GdiType.FONT, none), (0x2d, GdiType.FONT, none),
    (0x2e, GdiType.FONT, none), (0x2f, GdiType.PALETTE, none), (0x30, GdiType.FONT, none), (0x31, GdiType.FONT, none),
    (0x32, GdiType.BRUSH, some 0x00FFFFFF), (0x33, GdiType.PEN, none), (0x34, GdiType.BITMAP, none), (0x35, GdiType.FONT, none),
    (0x36, GdiType.FONT, none), (0x37, GdiType.FONT, none)]

/-! ## State -/

structure GdiEntry where
  generation : U16
  type : U8
deriving DecidableEq

structure Bitmap where
  w : BitVec 32
  h : BitVec 32
  planes : U32
  bpp : U32
  bits : U64
  stride : U32
  topDown : Bool
deriving DecidableEq

structure IconObject where
  isIcon : Bool
  color : U32
  alpha : U32
  mask : U32
deriving DecidableEq

structure State where
  /-- the table is mapped -/
  ready : Bool
  table : Nat → GdiEntry
  slots : Slots
  dcs : List (U32 × U32)
  brushes : List (U32 × U32)
  bitmaps : List (U32 × Bitmap)
  fonts : List U32
  icons : List (U32 × IconObject)
  sysBrushes : List (U32 × U32)

inductive Access where
  | tableMap
  | arenaMap
  | pebTable
  | argument
  | surface
  | zeroObject
  | entryGeneration
  | entryType
  | entryObject
  | dcOrigin
  | result
  | entryRead
  | entryFree
deriving DecidableEq

structure Guest where
  answers : Access → Bool
  /-- the stock objects that are written before an access fails -/
  stock : Nat
  /-- where `map_anywhere` finds room for the bits of a bitmap -/
  bits : Option U64

abbrev Act := Fallible State Access

def reach (guest : Guest) (a : Access) : Act Unit := .step fun s => if guest.answers a then .ok ((), s) else .error a

/-! ## Slots -/

def publishStock (s : State) (stock : Nat × U16 × Option U32) : State :=
  let handle := handleOf stock.2.1 stock.1
  { s with
    table := Function.update s.table stock.1 ⟨stock.2.1, GDI_ENTRY_IN_USE⟩
    brushes := s.brushes ++ (stock.2.2.toList.map fun color => (handle, color))
    fonts := if stock.2.1 = GdiType.FONT then s.fonts ++ [BitVec.ofNat 32 stock.1] else s.fonts }

def publishStockObjects (guest : Guest) : Act Bool := do
  .modify fun s => (STOCK_OBJECTS.take guest.stock).foldl publishStock s
  return decide (STOCK_OBJECTS.length ≤ guest.stock)

def ensureGdiTable (guest : Guest) : Act Bool := do
  let s ← .get
  if s.ready then return true
  else if !(guest.answers .tableMap && guest.answers .arenaMap && guest.answers .pebTable) then return false
  else do
    .modify fun s =>
      { s with ready := true, table := fun _ => ⟨0, 0⟩, slots := { s.slots with next := STOCK_SLOT_LAST + 1 } }
    publishStockObjects guest

def takeSlot : Act (Option Nat) :=
  .step fun s =>
    match Slots.take GDI_TABLE_SLOTS s.slots with
    | some (slot, slots) => .ok (some slot, { s with slots })
    | none => .ok (none, s)

def writeEntry (slot : Nat) (f : GdiEntry → GdiEntry) : Act Unit :=
  .modify fun s => { s with table := Function.update s.table slot (f (s.table slot)) }

def fillEntry (guest : Guest) (ty : U16) (slot : Nat) : Act U32 := do
  reach guest .zeroObject
  reach guest .entryGeneration
  writeEntry slot fun e => { e with generation := ty }
  reach guest .entryType
  writeEntry slot fun e => { e with type := GDI_ENTRY_IN_USE }
  reach guest .entryObject
  return handleOf ty slot

def allocGdiObject (guest : Guest) (ty : U16) : Act (Option U32) := do
  if !(← ensureGdiTable guest) then return none
  else do
    match ← takeSlot with
    | none => return none
    | some slot => do return some (← fillEntry guest ty slot)

/-! ## Creation -/

def allocDc (guest : Guest) (hwnd : U32) : Act U32 := do
  match ← allocGdiObject guest GdiType.DC with
  | none => return 0
  | some hdc => do
    reach guest .dcOrigin
    .modify fun s => { s with dcs := s.dcs ++ [(hdc, hwnd)] }
    return hdc

/-- `hwnd` is the window found for the argument, zero if there is none. -/
def ntUserGetDc (guest : Guest) (hwnd : U32) : Act U32 := do
  if hwnd = 0 then return 0
  else if !guest.answers .surface then return 0
  else allocDc guest hwnd

def ntUserBeginPaint (guest : Guest) (hwnd : U32) (ps : Bool) : Act U32 := do
  if hwnd = 0 then return 0
  else if !guest.answers .surface then return 0
  else do
    let hdc ← allocDc guest hwnd
    if ps then do
      reach guest .result
      return hdc
    else return hdc

def ntGdiCreateCompatibleDc (guest : Guest) : Act U32 := allocDc guest 0

def allocBrush (guest : Guest) (color : U32) : Act U32 := do
  match ← allocGdiObject guest GdiType.BRUSH with
  | none => return 0
  | some handle => do
    .modify fun s => { s with brushes := s.brushes ++ [(handle, color)] }
    return handle

def sysColorBrush (guest : Guest) (index color : U32) : Act U32 := do
  let s ← .get
  match s.sysBrushes.lookup index with
  | some h => return h
  | none => do
    let handle ← allocBrush guest color
    if handle ≠ 0 then do
      .modify fun s => { s with sysBrushes := s.sysBrushes ++ [(index, handle)] }
      return handle
    else return handle

def ntGdiCreatePen (guest : Guest) : Act U32 := return (← allocGdiObject guest GdiType.PEN).getD 0

def ntGdiCreateRectRgn (guest : Guest) : Act U32 := return (← allocGdiObject guest GdiType.REGION).getD 0

def ntGdiHfontCreate (guest : Guest) (enumex : Bool) : Act U32 := do
  if !enumex then return 0
  else do
    reach guest .argument
    match ← allocGdiObject guest GdiType.FONT with
    | none => return 0
    | some handle => do
      .modify fun s => { s with fonts := s.fonts ++ [handle &&& 0xFFFF] }
      return handle

def strideOf (w : BitVec 32) (planes bpp : U32) : U64 :=
  BitVec.ofNat 64 (((BitVec.ofInt 64 (max w.toInt 0) * bpp.setWidth 64 * planes.setWidth 64).toNat + 31) / 32) * 4

def allocBitmap (guest : Guest) (w h : BitVec 32) (planes bpp : U32) (topDown : Bool) : Act U32 := do
  let planes := if planes = 0 then 1 else planes
  let rows := h.toInt.natAbs
  let stride := strideOf w planes bpp
  if w.toInt ≤ 0 ∨ rows = 0 ∨ stride = 0 then return 0
  else do
    match ← allocGdiObject guest GdiType.BITMAP with
    | none => return 0
    | some handle =>
      match guest.bits with
      | none => return 0
      | some bits => do
        .modify fun s =>
          { s with bitmaps := s.bitmaps ++ [(handle, ⟨w, BitVec.ofNat 32 rows, planes, bpp, bits, stride.setWidth 32, topDown⟩)] }
        return handle

def ntGdiCreateBitmap (guest : Guest) (w h : BitVec 32) (planes bpp : U32) (src : Bool) : Act U32 := do
  let handle ← allocBitmap guest w h planes bpp true
  if handle ≠ 0 ∧ src then do
    reach guest .result
    return handle
  else return handle

def ntGdiCreateCompatibleBitmap (guest : Guest) (w h : BitVec 32) : Act U32 := allocBitmap guest w h 1 32 true

def ntGdiCreateDibSection (guest : Guest) (bmi : Bool) (w h : BitVec 32) (planes bpp : U32) (outBits : Bool) : Act U32 := do
  if !bmi then return 0
  else do
    reach guest .argument
    let handle ← allocBitmap guest w h planes bpp (decide (h.toInt < 0))
    if handle = 0 then return 0
    else if guest.bits = some 0 then return 0
    else if outBits then do
      reach guest .result
      return handle
    else return handle

/-- One of the two copies of `NtUserGetIconInfo`. -/
def copyBitmap (guest : Guest) (src : U32) : Act U32 := do
  let s ← .get
  match s.bitmaps.lookup src with
  | none => return 0
  | some b => do
    let dst ← allocBitmap guest b.w b.h b.planes b.bpp b.topDown
    if dst = 0 then return 0
    else do
      reach guest .result
      return dst

/-! ## Deletion -/

def isStock (slot : Nat) : Bool := decide (STOCK_SLOT_BASE ≤ slot) && decide (slot ≤ STOCK_SLOT_LAST)

def clearEntry (guest : Guest) (slot : Nat) : Act Unit := do
  let s ← .get
  if s.ready then do
    reach guest .entryRead
    if (s.table slot).type &&& GDI_ENTRY_IN_USE ≠ 0 then do
      reach guest .entryFree
      .modify fun s =>
        { s with table := Function.update s.table slot { s.table slot with type := 0 }, slots := s.slots.give slot }
    else return ()
  else return ()

def freeGdiObject (guest : Guest) (handle : U32) : Act Unit := do
  let slot := slotOf handle
  if slot = 0 ∨ GDI_TABLE_SLOTS ≤ slot ∨ isStock slot then return ()
  else do
    clearEntry guest slot
    .modify fun s =>
      { s with
        brushes := s.brushes.filter fun x => x.1 ≠ handle
        dcs := s.dcs.filter fun x => x.1 ≠ handle
        bitmaps := s.bitmaps.filter fun x => x.1 ≠ handle
        fonts := s.fonts.filter fun x => x ≠ BitVec.ofNat 32 slot }

def ntGdiDeleteObjectApp (guest : Guest) (handle : U32) : Act U32 := do
  let slot := slotOf handle
  if slot = 0 ∨ GDI_TABLE_SLOTS ≤ slot then return 0
  else if isStock slot then return 1
  else do
    freeGdiObject guest handle
    return 1

def ntUserReleaseDc (guest : Guest) (hdc : U32) : Act U32 := do
  let s ← .get
  if (s.dcs.lookup hdc).isSome then reach guest .surface else pure ()
  freeGdiObject guest hdc
  return 1

/-- `hdc` is what the structure holds, if there is one. -/
def ntUserEndPaint (guest : Guest) (window : Bool) (hdc : Option U32) : Act U32 := do
  if window then reach guest .surface else pure ()
  match hdc with
  | none => return 1
  | some hdc => do
    reach guest .argument
    freeGdiObject guest hdc
    return 1

/-! ## Cursors and icons -/

def createCursorIcon (handle : U32) (isIcon : Bool) : Act U32 := do
  .modify fun s => { s with icons := s.icons ++ [(handle, ⟨isIcon, 0, 0, 0⟩)] }
  return handle

def setIcon (hicon : U32) (f : IconObject → IconObject) : List (U32 × IconObject) → List (U32 × IconObject)
  | [] => []
  | x :: xs => if x.1 = hicon then (x.1, f x.2) :: xs else x :: setIcon hicon f xs

def ntUserSetCursorIconData (guest : Guest) (hicon color alpha mask : U32) : Act U32 := do
  let s ← .get
  if (s.icons.lookup hicon).isNone then return 0
  else do
    reach guest .argument
    .modify fun s => { s with icons := setIcon hicon (fun icon => { icon with color, alpha, mask }) s.icons }
    return 1

def ntUserDestroyCursor (hicon : U32) : Act U32 := do
  let s ← .get
  match s.icons.lookup hicon with
  | none => return 0
  | some icon => do
    .modify fun s =>
      { s with
        icons := s.icons.filter fun x => x.1 ≠ hicon
        bitmaps := s.bitmaps.filter fun x => x.1 ≠ icon.color ∧ x.1 ≠ icon.alpha ∧ x.1 ≠ icon.mask }
    return 1

/-! ## Calls -/

inductive Call where
  | ntUserGetDc (hwnd : U32)
  | ntUserBeginPaint (hwnd : U32) (ps : Bool)
  | ntGdiCreateCompatibleDc
  | ntGdiCreateSolidBrush (color : U32)
  | sysColorBrush (index color : U32)
  | ntGdiCreatePen
  | ntGdiCreateRectRgn
  | ntGdiHfontCreate (enumex : Bool)
  | ntGdiCreateBitmap (w h : BitVec 32) (planes bpp : U32) (src : Bool)
  | ntGdiCreateCompatibleBitmap (w h : BitVec 32)
  | ntGdiCreateDibSection (bmi : Bool) (w h : BitVec 32) (planes bpp : U32) (outBits : Bool)
  | copyBitmap (src : U32)
  | ntGdiDeleteObjectApp (handle : U32)
  | ntUserReleaseDc (hdc : U32)
  | ntUserEndPaint (window : Bool) (hdc : Option U32)
  | createCursorIcon (handle : U32) (isIcon : Bool)
  | ntUserSetCursorIconData (hicon color alpha mask : U32)
  | ntUserDestroyCursor (hicon : U32)

def Call.run (guest : Guest) : Call → Act U32
  | .ntUserGetDc hwnd => Gdi.ntUserGetDc guest hwnd
  | .ntUserBeginPaint hwnd ps => Gdi.ntUserBeginPaint guest hwnd ps
  | .ntGdiCreateCompatibleDc => Gdi.ntGdiCreateCompatibleDc guest
  | .ntGdiCreateSolidBrush color => allocBrush guest color
  | .sysColorBrush index color => Gdi.sysColorBrush guest index color
  | .ntGdiCreatePen => Gdi.ntGdiCreatePen guest
  | .ntGdiCreateRectRgn => Gdi.ntGdiCreateRectRgn guest
  | .ntGdiHfontCreate enumex => Gdi.ntGdiHfontCreate guest enumex
  | .ntGdiCreateBitmap w h planes bpp src => Gdi.ntGdiCreateBitmap guest w h planes bpp src
  | .ntGdiCreateCompatibleBitmap w h => Gdi.ntGdiCreateCompatibleBitmap guest w h
  | .ntGdiCreateDibSection bmi w h planes bpp outBits => Gdi.ntGdiCreateDibSection guest bmi w h planes bpp outBits
  | .copyBitmap src => Gdi.copyBitmap guest src
  | .ntGdiDeleteObjectApp handle => Gdi.ntGdiDeleteObjectApp guest handle
  | .ntUserReleaseDc hdc => Gdi.ntUserReleaseDc guest hdc
  | .ntUserEndPaint window hdc => Gdi.ntUserEndPaint guest window hdc
  | .createCursorIcon handle isIcon => Gdi.createCursorIcon handle isIcon
  | .ntUserSetCursorIconData hicon color alpha mask => Gdi.ntUserSetCursorIconData guest hicon color alpha mask
  | .ntUserDestroyCursor hicon => Gdi.ntUserDestroyCursor hicon

def State.new : State where
  ready := false
  table _ := ⟨0, 0⟩
  slots := ⟨0, []⟩
  dcs := []
  brushes := []
  bitmaps := []
  fonts := []
  icons := []
  sysBrushes := []

end Gdi

end Exemu.Os
