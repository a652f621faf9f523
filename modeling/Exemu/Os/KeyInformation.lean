import Exemu.Memory.Packed
import Exemu.Os.Registry

/-! # Key and value information

The buffers `NtQueryValueKey`, `NtEnumerateValueKey`, `NtEnumerateKey` and `NtQueryKey` fill: a
fixed part, then a name and data as far as there is room.
-/
namespace Exemu.Os

open Path (Text)

namespace Reg

def KEY_VALUE_BASIC_INFORMATION : U64 := 0
def KEY_VALUE_FULL_INFORMATION : U64 := 1
def KEY_VALUE_PARTIAL_INFORMATION : U64 := 2

end Reg

/-- What goes to the result length pointer, unless that is null, and then what goes to the buffer. -/
structure Reply where
  required : Option U32
  body : List Store
  status : U32

def Reply.fail (status : U32) : Reply := ⟨none, [], status⟩

def Reply.stores (self : Reply) (resultLenPtr : U64) : List Store :=
  (if resultLenPtr ≠ 0 then (self.required.map (Store.u32 resultLenPtr)).toList else []) ++ self.body

/-- The loop of `write_utf16_bounded` from the byte `n` on. -/
def writeUnits (addr maxBytes : U64) : U64 → List U16 → List Store
  | _, [] => []
  | n, u :: us => if maxBytes < n + 2 then [] else .u16 (addr + n) u :: writeUnits addr maxBytes (n + 2) us

def writeUtf16Bounded (addr : U64) (s : Text) (maxBytes : U64) : List Store := writeUnits addr maxBytes 0 (encodeUtf16 s)

/-- `saturating_sub` -/
def saturatingSub (a b : U64) : U64 := if a < b then 0 else a - b

def writeKeyValueInfo (cls buf length : U64) (name : Text) (ty : U32) (data : List U8) : Reply :=
  let nameBytes := utf16Bytes name
  let dataLen : U32 := BitVec.ofNat 32 data.length
  let sized (header total : U32) (body : List Store) : Reply :=
    if length.setWidth 32 < header then ⟨some total, [], Reg.STATUS_BUFFER_TOO_SMALL⟩
    else ⟨some total, body, if length.setWidth 32 < total then Reg.STATUS_BUFFER_OVERFLOW else Reg.NT_SUCCESS⟩
  if cls = Reg.KEY_VALUE_BASIC_INFORMATION then
    sized 12 (12 + nameBytes)
      ([.u32 buf 0, .u32 (buf + 4) ty, .u32 (buf + 8) nameBytes] ++ writeUtf16Bounded (buf + 12) name (length - 12))
  else if cls = Reg.KEY_VALUE_FULL_INFORMATION then
    let dataAt : U64 := 20 + nameBytes.setWidth 64
    sized 20 (20 + nameBytes + dataLen)
      ([.u32 buf 0, .u32 (buf + 4) ty, .u32 (buf + 8) (20 + nameBytes), .u32 (buf + 12) dataLen,
          .u32 (buf + 16) nameBytes] ++ writeUtf16Bounded (buf + 20) name (saturatingSub length 20) ++
        if dataAt < length then [⟨buf + dataAt, data.take (length - dataAt).toNat⟩] else [])
  else if cls = Reg.KEY_VALUE_PARTIAL_INFORMATION then
    sized 12 (12 + dataLen)
      [.u32 buf 0, .u32 (buf + 4) ty, .u32 (buf + 8) dataLen, ⟨buf + 12, data.take (length - 12).toNat⟩]
  else .fail Reg.STATUS_INVALID_PARAMETER

/-- `KEY_BASIC_INFORMATION` or `KEY_NODE_INFORMATION`, written alike by `nt_enumerate_key` and `nt_query_key`. -/
def writeKeyNamed (node : Bool) (buf length lwt : U64) (name : Text) : Reply :=
  let nameBytes := utf16Bytes name
  let header : U32 := (if node then 24 else 16) + nameBytes
  let nameOff : U64 := if node then 24 else 16
  if length < nameOff then ⟨some header, [], Reg.STATUS_BUFFER_TOO_SMALL⟩
  else
    ⟨some header,
      [.u64 buf lwt, .u32 (buf + 8) 0] ++
        (if node then [.u32 (buf + 12) 0, .u32 (buf + 16) 0, .u32 (buf + 20) nameBytes] else [.u32 (buf + 12) nameBytes]) ++
        writeUtf16Bounded (buf + nameOff) name (length - nameOff),
      if length < header.setWidth 64 then Reg.STATUS_BUFFER_OVERFLOW else Reg.NT_SUCCESS⟩

def writeKeyFull (buf length lwt : U64) (i : KeyInfo) : Reply :=
  if length < 44 then ⟨some 44, [], Reg.STATUS_BUFFER_TOO_SMALL⟩
  else
    ⟨some 44,
      [.u64 buf lwt, .u32 (buf + 8) 0, .u32 (buf + 12) 44, .u32 (buf + 16) 0, .u32 (buf + 20) i.subkeys,
        .u32 (buf + 24) i.maxSubkey, .u32 (buf + 28) 0, .u32 (buf + 32) i.values, .u32 (buf + 36) i.maxName,
        .u32 (buf + 40) i.maxData],
      Reg.NT_SUCCESS⟩

def writeKeyName (buf length : U64) (path : Text) : Reply :=
  let nameBytes := utf16Bytes path
  let header : U32 := 4 + nameBytes
  if length < 4 then ⟨some header, [], Reg.STATUS_BUFFER_TOO_SMALL⟩
  else
    ⟨some header, .u32 buf nameBytes :: writeUtf16Bounded (buf + 4) path (length - 4),
      if length < header.setWidth 64 then Reg.STATUS_BUFFER_OVERFLOW else Reg.NT_SUCCESS⟩

inductive KeyQuery where
  | NtQueryValueKey (hkey : U64) (name : Text)
  | NtEnumerateValueKey (hkey index : U64)
  | NtEnumerateKey (hkey index : U64)
  | NtQueryKey (hkey : U64)

namespace Registry

def fill (self : Registry) (q : KeyQuery) (cls buf length lwt : U64) : Reply :=
  match q with
  | .NtQueryValueKey hkey name =>
    match self.regPathOf hkey with
    | none => .fail Reg.STATUS_INVALID_HANDLE
    | some path =>
      match self.regHive.regValue path name with
      | none => .fail Reg.STATUS_OBJECT_NAME_NOT_FOUND
      | some v => writeKeyValueInfo cls buf length v.1 v.2.1 v.2.2
  | .NtEnumerateValueKey hkey index =>
    match self.regPathOf hkey with
    | none => .fail Reg.STATUS_INVALID_HANDLE
    | some path =>
      match (self.regHive.items path)[index.toNat]? with
      | none => .fail Reg.STATUS_NO_MORE_ENTRIES
      | some v => writeKeyValueInfo cls buf length v.1 v.2.1 v.2.2
  | .NtEnumerateKey hkey index =>
    match self.regPathOf hkey with
    | none => .fail Reg.STATUS_INVALID_HANDLE
    | some base =>
      match (self.regHive.subkeys base)[index.toNat]? with
      | none => .fail Reg.STATUS_NO_MORE_ENTRIES
      | some name =>
        if cls = Reg.KEY_BASIC_INFORMATION then writeKeyNamed false buf length lwt name
        else if cls = Reg.KEY_NODE_INFORMATION then writeKeyNamed true buf length lwt name
        else .fail Reg.STATUS_INVALID_PARAMETER
  | .NtQueryKey hkey =>
    match self.regPathOf hkey with
    | none => .fail Reg.STATUS_INVALID_HANDLE
    | some path =>
      if cls = Reg.KEY_BASIC_INFORMATION then writeKeyNamed false buf length lwt (regLeaf path)
      else if cls = Reg.KEY_NODE_INFORMATION then writeKeyNamed true buf length lwt (regLeaf path)
      else if cls = Reg.KEY_FULL_INFORMATION then writeKeyFull buf length lwt (self.regHive.ntQueryInfo path)
      else if cls = Reg.KEY_NAME_INFORMATION then writeKeyName buf length path
      else .fail Reg.STATUS_INVALID_PARAMETER

end Registry

/-! ## What belongs in the buffer -/

def le32 (n : Nat) : List U8 := toLe 4 (BitVec.ofNat 64 n)

def utf16Le (s : Text) : List U8 := (encodeUtf16 s).flatMap fun u => toLe 2 (u.setWidth 64)

def valueStructure (cls : U64) (name : Text) (ty : U32) (data : List U8) : Option (List U8) :=
  let named := (utf16Le name).length
  if cls = Reg.KEY_VALUE_BASIC_INFORMATION then some (le32 0 ++ le32 ty.toNat ++ le32 named ++ utf16Le name)
  else if cls = Reg.KEY_VALUE_FULL_INFORMATION then
    some (le32 0 ++ le32 ty.toNat ++ le32 (20 + named) ++ le32 data.length ++ le32 named ++ utf16Le name ++ data)
  else if cls = Reg.KEY_VALUE_PARTIAL_INFORMATION then some (le32 0 ++ le32 ty.toNat ++ le32 data.length ++ data)
  else none

def keyStructure (node : Bool) (lwt : U64) (name : Text) : List U8 :=
  toLe 8 lwt ++ le32 0 ++ (if node then le32 0 ++ le32 0 else []) ++ le32 (utf16Le name).length ++ utf16Le name

def keyFullStructure (lwt : U64) (i : KeyInfo) : List U8 :=
  toLe 8 lwt ++ le32 0 ++ le32 44 ++ le32 0 ++ le32 i.subkeys.toNat ++ le32 i.maxSubkey.toNat ++ le32 0 ++
    le32 i.values.toNat ++ le32 i.maxName.toNat ++ le32 i.maxData.toNat

namespace Registry

def said (self : Registry) (q : KeyQuery) (cls lwt : U64) : Option (List U8) :=
  match q with
  | .NtQueryValueKey hkey name =>
    match (self.call (.NtQueryValueKey hkey name)).2 with
    | .value n v => valueStructure cls n v.1 v.2
    | _ => none
  | .NtEnumerateValueKey hkey index =>
    match (self.call (.NtEnumerateValueKey hkey index)).2 with
    | .value n v => valueStructure cls n v.1 v.2
    | _ => none
  | .NtEnumerateKey hkey index =>
    match (self.call (.NtEnumerateKey hkey index)).2 with
    | .name n =>
      if cls = Reg.KEY_BASIC_INFORMATION then some (keyStructure false lwt n)
      else if cls = Reg.KEY_NODE_INFORMATION then some (keyStructure true lwt n)
      else none
    | _ => none
  | .NtQueryKey hkey =>
    match (self.call (.NtQueryKey hkey cls)).2 with
    | .name n =>
      if cls = Reg.KEY_BASIC_INFORMATION then some (keyStructure false lwt n)
      else if cls = Reg.KEY_NODE_INFORMATION then some (keyStructure true lwt n)
      else some (le32 (utf16Le n).length ++ utf16Le n)
    | .info i => some (keyFullStructure lwt i)
    | _ => none

end Registry
end Exemu.Os
