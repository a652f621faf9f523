import Exemu.Core.Memory
import Exemu.Library.Path
import Mathlib.Data.List.AList
import Mathlib.Data.List.DropRight
import Mathlib.Data.Char
import Mathlib.Data.List.Lex

/-! # The registry

One flat map from full key paths to their values, with the spelling each key was created under.
-/
namespace Exemu.Os

open Path (Text)

abbrev HashMap (V : Type) := AList fun _ : Text => V

namespace HashMap

variable {V : Type}

def retain (self : HashMap V) (p : Text → Bool) : HashMap V :=
  ⟨self.entries.filter fun e => p e.1, self.nodupKeys.sublist List.filter_sublist⟩

def orDefault (self : HashMap V) (k : Text) (d : V) : HashMap V := if k ∈ self then self else self.insert k d

def pairs (self : HashMap V) : List (Text × V) := self.entries.map fun e => (e.1, e.2)

end HashMap

abbrev RegValue := U32 × List U8

abbrev RegKey := HashMap RegValue

abbrev Hive := HashMap RegKey

namespace Reg

def REG_BINARY : U32 := 3
def REG_DWORD : U32 := 4
def ERROR_SUCCESS : U32 := 0
def ERROR_FILE_NOT_FOUND : U32 := 2
def ERROR_INVALID_HANDLE : U32 := 6
def ERROR_NO_MORE_ITEMS : U32 := 259

def NT_SUCCESS : U32 := 0
def STATUS_BUFFER_OVERFLOW : U32 := 0x80000005
def STATUS_NO_MORE_ENTRIES : U32 := 0x8000001A
def STATUS_INVALID_HANDLE : U32 := 0xC0000008
def STATUS_INVALID_PARAMETER : U32 := 0xC000000D
def STATUS_BUFFER_TOO_SMALL : U32 := 0xC0000023
def STATUS_OBJECT_NAME_NOT_FOUND : U32 := 0xC0000034
def STATUS_CANNOT_DELETE : U32 := 0xC0000121

def KEY_BASIC_INFORMATION : U64 := 0
def KEY_NODE_INFORMATION : U64 := 1
def KEY_FULL_INFORMATION : U64 := 2
def KEY_NAME_INFORMATION : U64 := 3

end Reg

/-! ## Texts -/

def toAsciiLowercase (s : Text) : Text := s.map Char.toLower

def eqIgnoreAsciiCase (a b : Text) : Bool := toAsciiLowercase a == toAsciiLowercase b

def stripPrefixCi (s pre : Text) : Option Text :=
  if pre = [] then some s
  else if eqIgnoreAsciiCase (s.take pre.length) pre then some (s.drop pre.length) else none

/-- `s.split('\\').next()` -/
def firstComponent (s : Text) : Text := (s.splitOn '\\').headD []

def trimMatches (s : Text) : Text := (s.dropWhile (· = '\\')).rdropWhile (· = '\\')

def splitOnce (s : Text) : Option (Text × Text) :=
  if '\\' ∈ s then some (s.takeWhile (· ≠ '\\'), (s.dropWhile (· ≠ '\\')).drop 1) else none

/-- `format!("{base}\\{name}")` -/
def under (base name : Text) : Text := base ++ '\\' :: name

def encodeUtf16 (s : Text) : List U16 :=
  s.flatMap fun c =>
    if c.toNat < 0x10000 then [BitVec.ofNat 16 c.toNat]
    else [BitVec.ofNat 16 (0xD800 + (c.toNat - 0x10000) / 0x400), BitVec.ofNat 16 (0xDC00 + (c.toNat - 0x10000) % 0x400)]

def utf16Bytes (s : Text) : U32 := BitVec.ofNat 32 ((encodeUtf16 s).length * 2)

/-! ## Lookups -/

namespace Hive

/-- The search for a child's stored spelling, with the spelling found so far that differs in case only. -/
def childSpellingFrom (pre name : Text) : List Text → Option Text → Option Text
  | [], ci => ci
  | k :: ks, ci =>
    match stripPrefixCi k pre with
    | none => childSpellingFrom pre name ks ci
    | some rest =>
      let first := firstComponent rest
      if first = [] then childSpellingFrom pre name ks ci
      else if first = name then some first
      else childSpellingFrom pre name ks (if ci.isNone && eqIgnoreAsciiCase first name then some first else ci)

def regChildSpelling (hive : Hive) (base name : Text) : Option Text :=
  childSpellingFrom (if base = [] then [] else under base []) name hive.keys none

def canonicalStep (hive : Hive) (st : Text × Bool) (comp : Text) : Text × Bool :=
  if comp = [] then st
  else
    let spelling := if st.2 then hive.regChildSpelling st.1 comp else none
    let out := spelling.getD comp
    (if st.1 = [] then out else under st.1 out, spelling.isSome)

def regCanonical (hive : Hive) (path : Text) : Text := ((path.splitOn '\\').foldl hive.canonicalStep ([], true)).1

def regValue (hive : Hive) (path name : Text) : Option (Text × RegValue) := do
  let m ← hive.lookup path
  match m.lookup name with
  | some v => some (name, v)
  | none => m.pairs.find? fun e => eqIgnoreAsciiCase e.1 name

def regValueSet (hive : Hive) (path name : Text) (val : RegValue) : Hive :=
  let m := (hive.lookup path).getD ∅
  let stored := if name ∈ m then none else m.keys.find? fun k => eqIgnoreAsciiCase k name
  hive.insert path (m.insert (stored.getD name) val)

def regValueRemove (hive : Hive) (path name : Text) : Hive × Bool :=
  match hive.lookup path with
  | none => (hive, false)
  | some m =>
    if name ∈ m then (hive.insert path (m.erase name), true)
    else
      match m.keys.find? fun k => eqIgnoreAsciiCase k name with
      | none => (hive, false)
      | some stored => (hive.insert path (m.erase stored), true)

/-- `BTreeMap::entry(k).or_insert(v)`: the map lists its entries by ascending keys. -/
def btreeOrInsert (k v : Text) : List (Text × Text) → List (Text × Text)
  | [] => [(k, v)]
  | e :: es => if k < e.1 then (k, v) :: e :: es else if k = e.1 then e :: es else e :: btreeOrInsert k v es

def noteSubkey (pre : Text) (set : List (Text × Text)) (k : Text) : List (Text × Text) :=
  match stripPrefixCi k pre with
  | none => set
  | some rest =>
    let first := firstComponent rest
    if first = [] then set else btreeOrInsert (toAsciiLowercase first) first set

def subkeys (hive : Hive) (base : Text) : List Text := (hive.keys.foldl (noteSubkey (under base [])) []).map Prod.snd

def items (hive : Hive) (path : Text) : List (Text × RegValue) :=
  match hive.lookup path with
  | some m => m.pairs.mergeSort fun a b => decide (a.1 ≤ b.1)
  | none => []

def regKeyCreate (hive : Hive) (path : Text) : Hive × Text :=
  (HashMap.orDefault hive (hive.regCanonical path) ∅, hive.regCanonical path)

def regKeyExists (hive : Hive) (path : Text) : Bool :=
  decide (path ∈ hive) || hive.keys.any fun k => eqIgnoreAsciiCase k path || (stripPrefixCi k (under path [])).isSome

end Hive

structure KeyInfo where
  subkeys : U32
  maxSubkey : U32
  values : U32
  maxName : U32
  maxData : U32
deriving DecidableEq

def listMax (xs : List Nat) : Nat := xs.foldl max 0

namespace Hive

/-- `reg_query_info`: names are measured in characters. -/
def queryInfo (hive : Hive) (base : Text) : KeyInfo :=
  let subs := hive.subkeys base
  let m := hive.lookup base
  { subkeys := BitVec.ofNat 32 subs.length
    maxSubkey := BitVec.ofNat 32 (listMax (subs.map List.length))
    values := (m.map fun m => BitVec.ofNat 32 m.entries.length).getD 0
    maxName := (m.map fun m => BitVec.ofNat 32 (listMax (m.keys.map List.length))).getD 0
    maxData := (m.map fun m => BitVec.ofNat 32 (listMax (m.pairs.map fun e => e.2.2.length))).getD 0 }

/-- `nt_query_key`: names are measured in bytes of UTF-16. -/
def ntQueryInfo (hive : Hive) (path : Text) : KeyInfo :=
  let subs := hive.subkeys path
  let m := hive.lookup path
  { subkeys := BitVec.ofNat 32 subs.length
    maxSubkey := BitVec.ofNat 32 (listMax (subs.map fun s => (utf16Bytes s).toNat))
    values := (m.map fun m => BitVec.ofNat 32 m.entries.length).getD 0
    maxName := (m.map fun m => BitVec.ofNat 32 (listMax (m.keys.map fun k => (utf16Bytes k).toNat))).getD 0
    maxData := (m.map fun m => BitVec.ofNat 32
      (listMax (m.pairs.map fun e => (BitVec.ofNat 32 e.2.2.length).toNat))).getD 0 }

end Hive

def regLeaf (path : Text) : Text := (path.splitOn '\\').getLastD path

/-! ## Handles and entry points -/

structure Registry where
  regHive : Hive
  regHandles : U64 → Option Text
  nextHandle : U64
  lastError : U32

def CLASSES_ROOT : Text := "HKLM\\SOFTWARE\\Classes".toList

def regHkeyRoot (hkey : U64) : Option Text :=
  if hkey = 0x80000000 then some CLASSES_ROOT
  else if hkey = 0x80000001 then some "HKCU".toList
  else if hkey = 0x80000002 then some "HKLM".toList
  else if hkey = 0x80000003 then some "HKU".toList
  else if hkey = 0x80000005 then some "HKCC".toList
  else none

def mapNtRegistryRoot (nt : Text) : Option Text := do
  let (reg, tail) ← splitOnce (nt.dropWhile (· = '\\'))
  if !eqIgnoreAsciiCase reg "Registry".toList then none
  else
    let (hive, rest) := (splitOnce tail).getD (tail, [])
    if eqIgnoreAsciiCase hive "Machine".toList then
      some (if rest = [] then "HKLM".toList else under "HKLM".toList rest)
    else if !eqIgnoreAsciiCase hive "User".toList then none
    else
      let rest := ((splitOnce rest).map Prod.snd).getD []
      some (if rest = [] then "HKCU".toList else under "HKCU".toList rest)

namespace Registry

def new : Registry := { regHive := ∅, regHandles := fun _ => none, nextHandle := 0x1000, lastError := 0 }

def regResolve (self : Registry) (hkey : U64) : Option Text :=
  match regHkeyRoot hkey with
  | some root => some root
  | none => self.regHandles hkey

def regPathOf (self : Registry) (hkey : U64) : Option Text := (self.regResolve hkey).map self.regHive.regCanonical

def regJoin (self : Registry) (hkey : U64) (subkey : Text) : Option Text :=
  (self.regResolve hkey).map fun base =>
    self.regHive.regCanonical (if subkey = [] then base else under base (trimMatches subkey))

def ntJoined (self : Registry) (rootDir : U64) (name : Text) : Option Text :=
  if rootDir ≠ 0 then
    (self.regResolve rootDir).map fun base =>
      let sub := trimMatches name
      if sub = [] then base else under base sub
  else mapNtRegistryRoot name

/-- The attributes are the root directory and the name, unless there are none to be read. -/
def ntRegResolve (self : Registry) (objattr : Option (U64 × Text)) : Option Text :=
  (objattr.bind fun a => self.ntJoined a.1 a.2).map self.regHive.regCanonical

def openHandle (self : Registry) (path : Text) : Registry × U64 :=
  ({ self with
      nextHandle := self.nextHandle + 4
      regHandles := fun h => if h = self.nextHandle then some path else self.regHandles h }, self.nextHandle)

end Registry

/-- What an entry point returns, and what it has to write to the guest. -/
inductive RegAnswer where
  | status (code : U32)
  | opened (handle : U64) (existed : Bool)
  | value (name : Text) (val : RegValue)
  | name (text : Text)
  | info (i : KeyInfo)
deriving DecidableEq

inductive RegCall where
  /-- one entry of `reg_seed` -/
  | seed (path name : Text) (val : RegValue)
  | RegCreate (hkey : U64) (subkey : Text)
  | RegOpen (hkey : U64) (subkey : Text)
  | RegSet (hkey : U64) (name : Text) (val : RegValue)
  | RegQuery (hkey : U64) (name : Text)
  | RegClose (hkey : U64)
  | RegDeleteValue (hkey : U64) (name : Text)
  | RegDeleteKey (hkey : U64) (subkey : Text)
  | RegEnumKey (hkey index : U64)
  | RegEnumValue (hkey index : U64)
  | RegQueryInfoKey (hkey : U64)
  | NtCreateKey (handleOut : U64) (objattr : Option (U64 × Text))
  | NtOpenKey (handleOut : U64) (objattr : Option (U64 × Text))
  | NtSetValueKey (hkey : U64) (name : Text) (val : RegValue)
  | NtQueryValueKey (hkey : U64) (name : Text)
  | NtEnumerateValueKey (hkey index : U64)
  | NtDeleteKey (hkey : U64)
  | NtDeleteValueKey (hkey : U64) (name : Text)
  | NtFlushKey (hkey : U64)
  | NtEnumerateKey (hkey index : U64)
  | NtQueryKey (hkey cls : U64)

namespace Registry

def fails (self : Registry) (code : U32) : Registry × RegAnswer := ({ self with lastError := code }, .status code)

def onKey (self : Registry) (path : Option Text) (f : Text → Registry × RegAnswer) : Registry × RegAnswer :=
  match path with
  | none => self.fails Reg.ERROR_INVALID_HANDLE
  | some path => f path

def onNtKey (self : Registry) (path : Option Text) (bad : U32) (f : Text → Registry × RegAnswer) : Registry × RegAnswer :=
  match path with
  | none => (self, .status bad)
  | some path => f path

def opens (self : Registry) (path : Text) (existed : Bool) : Registry × RegAnswer :=
  ((self.openHandle path).1, .opened (self.openHandle path).2 existed)

def regCreate (self : Registry) (hkey : U64) (subkey : Text) : Registry × RegAnswer :=
  self.onKey (self.regJoin hkey subkey) fun path =>
    { self with regHive := HashMap.orDefault self.regHive path ∅ }.opens path (decide (path ∈ self.regHive))

def regOpen (self : Registry) (hkey : U64) (subkey : Text) : Registry × RegAnswer :=
  self.onKey (self.regJoin hkey subkey) fun path =>
    if self.regHive.regKeyExists path then self.opens path true else self.fails Reg.ERROR_FILE_NOT_FOUND

def regSet (self : Registry) (hkey : U64) (name : Text) (val : RegValue) : Registry × RegAnswer :=
  self.onKey (self.regPathOf hkey) fun path =>
    ({ self with regHive := self.regHive.regValueSet path name val }, .status Reg.ERROR_SUCCESS)

def regQuery (self : Registry) (hkey : U64) (name : Text) : Registry × RegAnswer :=
  self.onKey (self.regPathOf hkey) fun path =>
    match self.regHive.regValue path name with
    | none => self.fails Reg.ERROR_FILE_NOT_FOUND
    | some v => (self, .value v.1 v.2)

def regClose (self : Registry) (hkey : U64) : Registry × RegAnswer :=
  ({ self with regHandles := fun h => if h = hkey then none else self.regHandles h }, .status Reg.ERROR_SUCCESS)

def regDeleteValue (self : Registry) (hkey : U64) (name : Text) : Registry × RegAnswer :=
  self.onKey (self.regPathOf hkey) fun path =>
    let r := self.regHive.regValueRemove path name
    if r.2 then ({ self with regHive := r.1 }, .status Reg.ERROR_SUCCESS) else self.fails Reg.ERROR_FILE_NOT_FOUND

def regDeleteKey (self : Registry) (hkey : U64) (subkey : Text) : Registry × RegAnswer :=
  self.onKey (self.regJoin hkey subkey) fun path =>
    ({ self with regHive := HashMap.retain self.regHive fun k => k != path && !(under path []).isPrefixOf k },
      .status Reg.ERROR_SUCCESS)

def regEnumKey (self : Registry) (hkey index : U64) : Registry × RegAnswer :=
  self.onKey (self.regPathOf hkey) fun base =>
    match (self.regHive.subkeys base)[index.toNat]? with
    | none => (self, .status Reg.ERROR_NO_MORE_ITEMS)
    | some name => (self, .name name)

def regEnumValue (self : Registry) (hkey index : U64) : Registry × RegAnswer :=
  self.onKey (self.regPathOf hkey) fun path =>
    match (self.regHive.items path)[index.toNat]? with
    | none => (self, .status Reg.ERROR_NO_MORE_ITEMS)
    | some v => (self, .value v.1 v.2)

def regQueryInfo (self : Registry) (hkey : U64) : Registry × RegAnswer :=
  self.onKey (self.regPathOf hkey) fun base => (self, .info (self.regHive.queryInfo base))

def ntCreateKey (self : Registry) (handleOut : U64) (objattr : Option (U64 × Text)) : Registry × RegAnswer :=
  if handleOut = 0 then (self, .status Reg.STATUS_INVALID_PARAMETER)
  else
    self.onNtKey (self.ntRegResolve objattr) Reg.STATUS_INVALID_PARAMETER fun path =>
      { self with regHive := HashMap.orDefault self.regHive path ∅ }.opens path (self.regHive.regKeyExists path)

def ntOpenKey (self : Registry) (handleOut : U64) (objattr : Option (U64 × Text)) : Registry × RegAnswer :=
  if handleOut = 0 then (self, .status Reg.STATUS_INVALID_PARAMETER)
  else
    self.onNtKey (self.ntRegResolve objattr) Reg.STATUS_INVALID_PARAMETER fun path =>
      if self.regHive.regKeyExists path then self.opens path true else (self, .status Reg.STATUS_OBJECT_NAME_NOT_FOUND)

def ntSetValueKey (self : Registry) (hkey : U64) (name : Text) (val : RegValue) : Registry × RegAnswer :=
  self.onNtKey (self.regPathOf hkey) Reg.STATUS_INVALID_HANDLE fun path =>
    ({ self with regHive := self.regHive.regValueSet path name val }, .status Reg.NT_SUCCESS)

def ntQueryValueKey (self : Registry) (hkey : U64) (name : Text) : Registry × RegAnswer :=
  self.onNtKey (self.regPathOf hkey) Reg.STATUS_INVALID_HANDLE fun path =>
    match self.regHive.regValue path name with
    | none => (self, .status Reg.STATUS_OBJECT_NAME_NOT_FOUND)
    | some v => (self, .value v.1 v.2)

def ntEnumerateValueKey (self : Registry) (hkey index : U64) : Registry × RegAnswer :=
  self.onNtKey (self.regPathOf hkey) Reg.STATUS_INVALID_HANDLE fun path =>
    match (self.regHive.items path)[index.toNat]? with
    | none => (self, .status Reg.STATUS_NO_MORE_ENTRIES)
    | some v => (self, .value v.1 v.2)

def ntDeleteKey (self : Registry) (hkey : U64) : Registry × RegAnswer :=
  self.onNtKey (self.regPathOf hkey) Reg.STATUS_INVALID_HANDLE fun path =>
    if !self.regHive.regKeyExists path then (self, .status Reg.STATUS_OBJECT_NAME_NOT_FOUND)
    else if self.regHive.subkeys path ≠ [] then (self, .status Reg.STATUS_CANNOT_DELETE)
    else ({ self with regHive := self.regHive.erase path }, .status Reg.NT_SUCCESS)

def ntDeleteValueKey (self : Registry) (hkey : U64) (name : Text) : Registry × RegAnswer :=
  self.onNtKey (self.regPathOf hkey) Reg.STATUS_INVALID_HANDLE fun path =>
    let r := self.regHive.regValueRemove path name
    if r.2 then ({ self with regHive := r.1 }, .status Reg.NT_SUCCESS) else (self, .status Reg.STATUS_OBJECT_NAME_NOT_FOUND)

def ntFlushKey (self : Registry) (hkey : U64) : Registry × RegAnswer :=
  self.onNtKey (self.regPathOf hkey) Reg.STATUS_INVALID_HANDLE fun _ => (self, .status Reg.NT_SUCCESS)

def ntEnumerateKey (self : Registry) (hkey index : U64) : Registry × RegAnswer :=
  self.onNtKey (self.regPathOf hkey) Reg.STATUS_INVALID_HANDLE fun base =>
    match (self.regHive.subkeys base)[index.toNat]? with
    | none => (self, .status Reg.STATUS_NO_MORE_ENTRIES)
    | some name => (self, .name name)

def ntQueryKey (self : Registry) (hkey cls : U64) : Registry × RegAnswer :=
  self.onNtKey (self.regPathOf hkey) Reg.STATUS_INVALID_HANDLE fun path =>
    if cls = Reg.KEY_BASIC_INFORMATION ∨ cls = Reg.KEY_NODE_INFORMATION then (self, .name (regLeaf path))
    else if cls = Reg.KEY_FULL_INFORMATION then (self, .info (self.regHive.ntQueryInfo path))
    else if cls = Reg.KEY_NAME_INFORMATION then (self, .name path)
    else (self, .status Reg.STATUS_INVALID_PARAMETER)

def call (self : Registry) : RegCall → Registry × RegAnswer
  | .seed path name val =>
    let (hive, canon) := self.regHive.regKeyCreate path
    ({ self with regHive := hive.regValueSet canon name val }, .status Reg.ERROR_SUCCESS)
  | .RegCreate hkey subkey => self.regCreate hkey subkey
  | .RegOpen hkey subkey => self.regOpen hkey subkey
  | .RegSet hkey name val => self.regSet hkey name val
  | .RegQuery hkey name => self.regQuery hkey name
  | .RegClose hkey => self.regClose hkey
  | .RegDeleteValue hkey name => self.regDeleteValue hkey name
  | .RegDeleteKey hkey subkey => self.regDeleteKey hkey subkey
  | .RegEnumKey hkey index => self.regEnumKey hkey index
  | .RegEnumValue hkey index => self.regEnumValue hkey index
  | .RegQueryInfoKey hkey => self.regQueryInfo hkey
  | .NtCreateKey handleOut objattr => self.ntCreateKey handleOut objattr
  | .NtOpenKey handleOut objattr => self.ntOpenKey handleOut objattr
  | .NtSetValueKey hkey name val => self.ntSetValueKey hkey name val
  | .NtQueryValueKey hkey name => self.ntQueryValueKey hkey name
  | .NtEnumerateValueKey hkey index => self.ntEnumerateValueKey hkey index
  | .NtDeleteKey hkey => self.ntDeleteKey hkey
  | .NtDeleteValueKey hkey name => self.ntDeleteValueKey hkey name
  | .NtFlushKey hkey => self.ntFlushKey hkey
  | .NtEnumerateKey hkey index => self.ntEnumerateKey hkey index
  | .NtQueryKey hkey cls => self.ntQueryKey hkey cls

end Registry

end Exemu.Os
