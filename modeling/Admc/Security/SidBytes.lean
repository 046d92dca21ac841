import Admc.Interface.Server
import Admc.Lib.Guarded
import Admc.Security.Edit
import Admc.Security.SdText

/-!
# Identifiers in bytes

Two forms of an identifier share the type of byte arrays: the one of the directory, which is as long
as its sub-authorities need, and the structure in memory, with room for fifteen of them. The form of
the directory is shown as if it were the structure, and copied as if it had its size. Here each byte
of an array is accessed in such a way that it shows whether it is there.

* `guarded_objectSidDisplayValue`, `guarded_domSidFromBytes`: which bytes are read;
* `domSidFromBytes_domSidToBytes`: a structure is read as it was written;
* `readWithin_iff`: an identifier of the directory is read within its bytes if it has fifteen
  sub-authorities.
-/

namespace Admc.ByteAccess

/-! ## The structure -/

/-- `struct dom_sid`. -/
@[ext] structure DomSidStruct where
  sidRevNum : BitVec 8
  numAuths : BitVec 8
  idAuth : Fin 6 → BitVec 8
  subAuths : Fin 15 → BitVec 32

/-- `sizeof(struct dom_sid)`. -/
def sizeofDomSid : ℕ := 68

/-- A number of four bytes, the lowest of which comes first. -/
def word (byte : ℕ → UInt8) (i : ℕ) : BitVec 32 :=
  (byte (i + 3)).toBitVec ++ (byte (i + 2)).toBitVec ++ (byte (i + 1)).toBitVec ++
    (byte i).toBitVec

/-- How many sub-authorities are in use: `num_auths` has a sign. -/
def subAuthsCount (numAuths : BitVec 8) : ℕ := numAuths.toInt.toNat

namespace DomSidStruct

/-- The structure that is at some place in memory. -/
def ofMemory (byte : ℕ → UInt8) : DomSidStruct where
  sidRevNum := (byte 0).toBitVec
  numAuths := (byte 1).toBitVec
  idAuth i := (byte (2 + i)).toBitVec
  subAuths i := word byte (8 + 4 * i)

/-- The identifier that some bytes denote, with zeros behind them. -/
def ofBytes (bytes : QByteArray) : DomSidStruct := ofMemory (bytes.getD · 0)

variable (sid : DomSidStruct)

/-- The bytes of the structure. -/
def memory (i : ℕ) : UInt8 :=
  if i = 0 then ⟨sid.sidRevNum⟩
  else if i = 1 then ⟨sid.numAuths⟩
  else if h : i < 8 then ⟨sid.idAuth ⟨i - 2, by omega⟩⟩
  else if h : i < 68 then ⟨(sid.subAuths ⟨(i - 8) / 4, by omega⟩).extractLsb' (8 * ((i - 8) % 4)) 8⟩
  else 0

/-- The identifier, with the sub-authorities in use. -/
def domSid : DomSid where
  sidRevNum := sid.sidRevNum
  idAuth := List.ofFn sid.idAuth
  subAuths := (List.ofFn sid.subAuths).take (subAuthsCount sid.numAuths)
  idAuth_length := List.length_ofFn
  subAuths_length := (List.length_take_le' _ _).trans_eq List.length_ofFn

end DomSidStruct

/-! ## Reading bytes -/

/-- A number of four bytes is read. -/
def readWord (bytes : QByteArray) (i : ℕ) : Option (BitVec 32) := do
  let byte0 ← bytes[i]?
  let byte1 ← bytes[i + 1]?
  let byte2 ← bytes[i + 2]?
  let byte3 ← bytes[i + 3]?
  return byte3.toBitVec ++ byte2.toBitVec ++ byte1.toBitVec ++ byte0.toBitVec

/-- `dom_sid_string`, from what it reads. -/
def domSidStringOf (sidRevNum : BitVec 8) (idAuth : List (BitVec 8)) (subAuths : List (BitVec 32)) :
    QString :=
  let ia := idAuth.foldl (fun ia byte => 256 * ia + byte.toNat) 0
  let buf := ['S', '-'] ++ Nat.toDigits 10 sidRevNum.toNat ++ ['-'] ++ iaString ia ++
    subAuths.flatMap fun subAuth => ['-'] ++ Nat.toDigits 10 subAuth.toNat
  if buf.length + 1 > domSidStrBuflen then "(SID ERR)".toList else buf

/-- `object_sid_display_value`: the bytes are taken for a structure. -/
def objectSidDisplayValue (sidBytes : QByteArray) : Option QString := do
  let idAuth ← (List.range 6).mapM fun i => (sidBytes[2 + i]?).map UInt8.toBitVec
  let sidRevNum ← sidBytes[0]?
  let numAuths ← sidBytes[1]?
  let subAuths ← (List.range (subAuthsCount numAuths.toBitVec)).mapM fun i =>
    readWord sidBytes (8 + 4 * i)
  return domSidStringOf sidRevNum.toBitVec idAuth subAuths

/-- `memcpy`, from the start of an array. -/
def memcpy (bytes : QByteArray) (size : ℕ) : Option QByteArray :=
  (List.range size).mapM fun i => bytes[i]?

/-- `dom_sid_from_bytes`. -/
def domSidFromBytes (bytes : QByteArray) : Option DomSidStruct := do
  let out ← memcpy bytes sizeofDomSid
  return .ofBytes out

/-- `dom_sid_to_bytes`. -/
def domSidToBytes (sid : DomSidStruct) : QByteArray := (List.range sizeofDomSid).map sid.memory

/-- `ace_match_without_access_mask`. -/
def aceMatchWithoutAccessMask (ace : SecurityAce) (trustee : QByteArray) (right : SecurityRight)
    (allow : Bool) (matchFlags : AceMatchFlags) : Option Bool := do
  let trusteeSid ← domSidFromBytes trustee
  return Admc.aceMatchWithoutAccessMask ace trusteeSid.domSid right allow matchFlags

/-- `ace_match`: nothing is read if the mask does not match. -/
def aceMatch (ace : SecurityAce) (trustee : QByteArray) (right : SecurityRight) (allow : Bool) :
    Option Bool :=
  let accessMaskMatch := bitmaskIsSet ace.accessMask (adSecurityMapAccessMask right.accessMask)
  if accessMaskMatch then aceMatchWithoutAccessMask ace trustee right allow stateMatchFlags
  else some false

/-- `make_security_ace`. -/
def makeSecurityAce (rt : Runtime) (trustee : QByteArray) (right : SecurityRight)
    (accessMask : AccessMask) (allow : Bool) : Option SecurityAce := do
  let trusteeSid ← domSidFromBytes trustee
  return Admc.makeSecurityAce rt trusteeSid.domSid right accessMask allow

/-! ## Adding trustees -/

/-- A row of `trustee_model`: the name and the identifier. -/
abbrev TrusteeRow := QString × QByteArray

/-- `ad_security_get_trustee_name`, with the names of the well-known trustees, and those that the
    directory finds. -/
def adSecurityGetTrusteeName (names : QString → QString) (trustee : QByteArray) :
    Option QString := do
  let trusteeString ← objectSidDisplayValue trustee
  return names trusteeString

/-- The loop of `SecurityTab::add_trustees`. -/
def addTrustee (names : QString → QString) (currentSidStringList : List QString)
    (rows : List TrusteeRow) (sid : QByteArray) : Option (List TrusteeRow) := do
  let sidString ← objectSidDisplayValue sid
  if currentSidStringList.contains sidString then return rows
  else
    let name ← adSecurityGetTrusteeName names sid
    return rows ++ [(name, sid)]

/-- `SecurityTab::add_trustees`. -/
def addTrustees (names : QString → QString) (rows : List TrusteeRow) (sidList : List QByteArray) :
    Option (List TrusteeRow) := do
  let currentSidStringList ← rows.mapM fun row => objectSidDisplayValue row.2
  sidList.foldlM (addTrustee names currentSidStringList) rows

/-- The handler of `SecurityTab::on_add_trustee_button`, with the objects that are found of those
    that have been selected. -/
def onAddTrusteeButton (names : QString → QString) (rows : List TrusteeRow)
    (objects : List AdObject) : Option (List TrusteeRow) :=
  addTrustees names rows (objects.map fun object => object.getValue "objectSid")

/-! ## What is read -/

section
variable {bytes : QByteArray} {sid : DomSidStruct}

theorem guarded_getElem? (bytes : QByteArray) (i : ℕ) :
    Guarded bytes[i]? (i < bytes.length) (bytes.getD i 0) := Guarded.getElem? bytes i 0

theorem guarded_readWord (bytes : QByteArray) (i : ℕ) :
    Guarded (readWord bytes i) (i + 3 < bytes.length) (word (bytes.getD · 0) i) := by
  refine Guarded.congr (Guarded.bind (guarded_getElem? bytes i) fun _ =>
    Guarded.bind (guarded_getElem? bytes (i + 1)) fun _ =>
      Guarded.bind (guarded_getElem? bytes (i + 2)) fun _ =>
        Guarded.bind (guarded_getElem? bytes (i + 3)) fun _ => Guarded.pure _) ?_
  rw [and_true]
  omega

/-- How many sub-authorities some bytes count. -/
def countOf (bytes : QByteArray) : ℕ := subAuthsCount (bytes.getD 1 0).toBitVec

/-- What is read to show an identifier is what it counts. -/
theorem guarded_objectSidDisplayValue (bytes : QByteArray) :
    Guarded (objectSidDisplayValue bytes) (8 + 4 * countOf bytes ≤ bytes.length)
      (domSidStringOf (bytes.getD 0 0).toBitVec
        ((List.range 6).map fun i => (bytes.getD (2 + i) 0).toBitVec)
        ((List.range (countOf bytes)).map fun i => word (bytes.getD · 0) (8 + 4 * i))) := by
  refine Guarded.congr (Guarded.bind
    (Guarded.mapM fun i _ => (guarded_getElem? bytes (2 + i)).map UInt8.toBitVec) fun _ =>
      Guarded.bind (guarded_getElem? bytes 0) fun _ =>
        Guarded.bind (guarded_getElem? bytes 1) fun _ =>
          Guarded.bind (Guarded.mapM fun i _ => guarded_readWord bytes (8 + 4 * i)) fun _ =>
            Guarded.pure _) ?_
  simp only [List.mem_range, and_true]
  constructor
  · rintro ⟨hauth, h0, h1, hsub⟩
    have hlast := hauth 5 (by decide)
    by_cases hcount : countOf bytes = 0
    · omega
    · have hword := hsub (countOf bytes - 1) (Nat.sub_one_lt hcount)
      omega
  · intro h
    refine ⟨fun i hi => by omega, by omega, by omega, fun i hi => ?_⟩
    have hi : i < countOf bytes := hi
    omega

theorem guarded_memcpy (bytes : QByteArray) (size : ℕ) :
    Guarded (memcpy bytes size) (size ≤ bytes.length)
      ((List.range size).map fun i => bytes.getD i 0) := by
  refine (Guarded.mapM fun i _ => guarded_getElem? bytes i).congr ?_
  simp only [List.mem_range]
  constructor
  · intro h
    by_contra hlt
    exact absurd (h bytes.length (Nat.lt_of_not_le hlt)) (lt_irrefl _)
  · intro h i hi
    exact hi.trans_le h

/-- A structure has so many bytes. -/
theorem ofMemory_congr {byte byte' : ℕ → UInt8} (h : ∀ i < sizeofDomSid, byte i = byte' i) :
    DomSidStruct.ofMemory byte = DomSidStruct.ofMemory byte' := by
  rw [sizeofDomSid] at h
  ext1
  · exact congrArg UInt8.toBitVec (h 0 (by decide))
  · exact congrArg UInt8.toBitVec (h 1 (by decide))
  · funext i
    exact congrArg UInt8.toBitVec (h (2 + i) (by omega))
  · funext i
    rw [DomSidStruct.ofMemory, DomSidStruct.ofMemory]
    dsimp only
    rw [word, word, h (8 + 4 * i) (by omega), h (8 + 4 * i + 1) (by omega),
      h (8 + 4 * i + 2) (by omega), h (8 + 4 * i + 3) (by omega)]

/-- All bytes of a structure are copied. -/
theorem guarded_domSidFromBytes (bytes : QByteArray) :
    Guarded (domSidFromBytes bytes) (sizeofDomSid ≤ bytes.length) (.ofBytes bytes) := by
  have hcopy : DomSidStruct.ofBytes ((List.range sizeofDomSid).map fun i => bytes.getD i 0) =
      .ofBytes bytes := by
    refine ofMemory_congr fun i hi => ?_
    rw [List.getD_eq_getElem?_getD, List.getElem?_map, List.getElem?_range hi]
    rfl
  rw [← hcopy]
  exact Guarded.congr (Guarded.bind (guarded_memcpy bytes sizeofDomSid) fun _ => Guarded.pure _)
    (and_true _).to_iff

/-- The bytes of a number, put together. -/
theorem extractLsb'_append (w : BitVec 32) : w.extractLsb' 24 8 ++ w.extractLsb' 16 8 ++
    w.extractLsb' 8 8 ++ w.extractLsb' 0 8 = w := by
  have hhigh : w.extractLsb' 24 8 ++ w.extractLsb' 16 8 = w.extractLsb' 16 16 :=
    BitVec.extractLsb'_append_extractLsb'_eq_extractLsb' rfl
  have hmiddle : w.extractLsb' 16 16 ++ w.extractLsb' 8 8 = w.extractLsb' 8 24 :=
    BitVec.extractLsb'_append_extractLsb'_eq_extractLsb' rfl
  have hlow : w.extractLsb' 8 24 ++ w.extractLsb' 0 8 = w.extractLsb' 0 32 :=
    BitVec.extractLsb'_append_extractLsb'_eq_extractLsb' rfl
  rw [hhigh, hmiddle, hlow, BitVec.extractLsb'_eq_self]
/-- The structure at the place of its bytes. -/
theorem ofMemory_memory (sid : DomSidStruct) : DomSidStruct.ofMemory sid.memory = sid := by
  have hword : ∀ i : Fin 15, ∀ k < 4, sid.memory (8 + 4 * i + k) =
      ⟨(sid.subAuths i).extractLsb' (8 * k) 8⟩ := by
    intro i k hk
    have hplace : (8 + 4 * (i : ℕ) + k - 8) / 4 = i := by omega
    have hbyte : (8 + 4 * (i : ℕ) + k - 8) % 4 = k := by omega
    rw [DomSidStruct.memory, if_neg (by omega), if_neg (by omega), dif_neg (by omega),
      dif_pos (by omega)]
    simp only [hplace, hbyte]
  ext1
  · rfl
  · rfl
  · funext i
    have hauth : sid.memory (2 + i) = ⟨sid.idAuth i⟩ := by
      have hplace : 2 + (i : ℕ) - 2 = i := by omega
      rw [DomSidStruct.memory, if_neg (by omega), if_neg (by omega), dif_pos (by omega)]
      simp only [hplace]
    exact congrArg UInt8.toBitVec hauth
  · funext i
    rw [DomSidStruct.ofMemory]
    dsimp only
    rw [word, hword i 3 (by decide), hword i 2 (by decide), hword i 1 (by decide)]
    rw [← Nat.add_zero (8 + 4 * (i : ℕ)), hword i 0 (by decide)]
    exact extractLsb'_append _

/-- A structure is read as it was written. -/
theorem domSidFromBytes_domSidToBytes (sid : DomSidStruct) :
    domSidFromBytes (domSidToBytes sid) = some sid := by
  have hread : DomSidStruct.ofBytes (domSidToBytes sid) = sid := by
    rw [← ofMemory_memory sid]
    refine ofMemory_congr fun i hi => ?_
    rw [ofMemory_memory, domSidToBytes, List.getD_eq_getElem?_getD, List.getElem?_map,
      List.getElem?_range hi]
    rfl
  rw [(guarded_domSidFromBytes _).eq_some (by simp [domSidToBytes]), hread]

end

/-! ## Identifiers of the directory -/

section
variable {bytes : QByteArray}

/-- A value of an object SID that the directory can return, or an absent one: with so many
    sub-authorities as the second byte counts. -/
def IsObjectSid (bytes : QByteArray) : Prop :=
  bytes = [] ∨ ∃ n ≤ 15, bytes[1]? = some (UInt8.ofNat n) ∧ bytes.length = 8 + 4 * n

/-- The bytes have the sub-authorities that they count. -/
def IsShown (bytes : QByteArray) : Prop :=
  countOf bytes ≤ 15 ∧ 8 + 4 * countOf bytes ≤ bytes.length

theorem IsObjectSid.countOf (h : IsObjectSid bytes) (hne : bytes ≠ []) :
    countOf bytes ≤ 15 ∧ bytes.length = 8 + 4 * countOf bytes := by
  obtain ⟨n, hn, hbyte, hlength⟩ := h.resolve_left hne
  have hcount : ∀ n ≤ 15, subAuthsCount (UInt8.ofNat n).toBitVec = n := by decide
  have hget : bytes.getD 1 0 = UInt8.ofNat n := by
    rw [List.getD_eq_getElem?_getD, hbyte]
    rfl
  rw [ByteAccess.countOf, hget, hcount n hn]
  exact ⟨hn, hlength⟩

/-- The directory's identifiers can be shown, if they are there. -/
theorem isShown_iff (h : IsObjectSid bytes) : IsShown bytes ↔ bytes ≠ [] := by
  constructor
  · rintro ⟨-, hlength⟩ rfl
    exact absurd hlength (by decide)
  · intro hne
    obtain ⟨hcount, hlength⟩ := h.countOf hne
    exact ⟨hcount, hlength.ge⟩

theorem getD_domSidToBytes (sid : DomSidStruct) {i : ℕ} (h : i < sizeofDomSid) :
    (domSidToBytes sid).getD i 0 = sid.memory i := by
  rw [domSidToBytes, List.getD_eq_getElem?_getD, List.getElem?_map, List.getElem?_range h]
  rfl

/-- So can structures. -/
theorem isShown_domSidToBytes {sid : DomSidStruct} (h : subAuthsCount sid.numAuths ≤ 15) :
    IsShown (domSidToBytes sid) := by
  have hcount : ByteAccess.countOf (domSidToBytes sid) = subAuthsCount sid.numAuths := by
    rw [ByteAccess.countOf, getD_domSidToBytes sid (by decide)]
    rfl
  have hlength : (domSidToBytes sid).length = 68 := by simp [domSidToBytes, sizeofDomSid]
  rw [IsShown, hcount, hlength]
  omega

/-- What is shown is the text of the identifier. -/
theorem objectSidDisplayValue_eq (h : IsShown bytes) :
    objectSidDisplayValue bytes =
      some (domSidString (some (DomSidStruct.ofBytes bytes).domSid)) := by
  have hsub : (List.ofFn (DomSidStruct.ofBytes bytes).subAuths).take (ByteAccess.countOf bytes) =
      (List.range (ByteAccess.countOf bytes)).map fun i => word (bytes.getD · 0) (8 + 4 * i) := by
    refine List.ext_getElem (by simp [h.1]) fun i hi hi' => ?_
    rw [List.getElem_take, List.getElem_ofFn, List.getElem_map, List.getElem_range]
    rfl
  have hauth : List.ofFn (DomSidStruct.ofBytes bytes).idAuth =
      (List.range 6).map fun i => (bytes.getD (2 + i) 0).toBitVec := by
    refine List.ext_getElem (by simp) fun i hi hi' => ?_
    rw [List.getElem_ofFn, List.getElem_map, List.getElem_range]
    rfl
  rw [(guarded_objectSidDisplayValue bytes).eq_some h.2, ← hsub, ← hauth]
  rfl

/-- An identifier is read as what it is, and within its bytes, wherever the security tab takes
    it. -/
structure ReadWithin (bytes : QByteArray) : Prop where
  shown : objectSidDisplayValue bytes =
    some (domSidString (some (DomSidStruct.ofBytes bytes).domSid))
  read : domSidFromBytes bytes = some (.ofBytes bytes)
  matched : ∀ ace right allow, aceMatch ace bytes right allow =
    some (Admc.aceMatch ace (DomSidStruct.ofBytes bytes).domSid right allow)
  made : ∀ rt right accessMask allow, makeSecurityAce rt bytes right accessMask allow =
    some (Admc.makeSecurityAce rt (DomSidStruct.ofBytes bytes).domSid right accessMask allow)

/-- Only an identifier that fills the structure is. -/
theorem readWithin_iff (h : IsObjectSid bytes) :
    ReadWithin bytes ↔ bytes.length = sizeofDomSid := by
  constructor
  · intro hread
    have hlong : sizeofDomSid ≤ bytes.length :=
      (guarded_domSidFromBytes bytes).isSome_iff.1 (by rw [hread.read]; rfl)
    have hne : bytes ≠ [] := by
      rintro rfl
      exact absurd hlong (by decide)
    obtain ⟨hcount, hlength⟩ := h.countOf hne
    rw [sizeofDomSid] at hlong ⊢
    omega
  · intro hlength
    have hne : bytes ≠ [] := by
      rintro rfl
      exact absurd hlength (by decide)
    have hread := (guarded_domSidFromBytes bytes).eq_some hlength.ge
    refine ⟨objectSidDisplayValue_eq ((isShown_iff h).2 hne), hread, fun ace right allow => ?_,
      fun rt right accessMask allow => ?_⟩
    · rw [aceMatch, aceMatchWithoutAccessMask, hread, Admc.aceMatch]
      split_ifs with hmask
      · rw [hmask]
        rfl
      · rw [Bool.eq_false_of_not_eq_true hmask]
        rfl
    · rw [makeSecurityAce, hread]
      rfl

end

/-! ## Adding trustees -/

section
variable {names : QString → QString} {rows : List TrusteeRow}

/-- One trustee more. -/
theorem guarded_addTrustee (names : QString → QString) (currentSidStringList : List QString)
    (rows : List TrusteeRow) {sid : QByteArray} (h : IsObjectSid sid) :
    Guarded (addTrustee names currentSidStringList rows sid) (sid ≠ [])
      (if currentSidStringList.contains
          (domSidString (some (DomSidStruct.ofBytes sid).domSid)) then rows
        else rows ++ [(names (domSidString (some (DomSidStruct.ofBytes sid).domSid)), sid)]) where
  eq_some hne := by
    have hshown := objectSidDisplayValue_eq ((isShown_iff h).2 hne)
    rw [addTrustee, hshown]
    dsimp only [Option.bind_eq_bind, Option.bind_some]
    split_ifs
    · rfl
    · rw [adSecurityGetTrusteeName, hshown]
      rfl
  eq_none hne := by
    obtain rfl := not_not.1 hne
    rfl

/-- A row that is added can be shown. -/
theorem isShown_addTrustee {currentSidStringList : List QString} {rows' : List TrusteeRow}
    {sid : QByteArray} (h : IsObjectSid sid) (hrows : ∀ row ∈ rows, IsShown row.2)
    (hadd : addTrustee names currentSidStringList rows sid = some rows') :
    ∀ row ∈ rows', IsShown row.2 := by
  have hadded := guarded_addTrustee names currentSidStringList rows h
  by_cases hne : sid ≠ []
  · rw [hadded.eq_some hne, Option.some_inj] at hadd
    rw [← hadd]
    split_ifs
    · exact hrows
    · rw [List.forall_mem_append, List.forall_mem_singleton]
      exact ⟨hrows, (isShown_iff h).2 hne⟩
  · rw [hadded.eq_none hne] at hadd
    exact nomatch hadd

theorem isShown_foldlM {currentSidStringList : List QString} {rows' : List TrusteeRow}
    {sidList : List QByteArray} (h : ∀ sid ∈ sidList, IsObjectSid sid)
    (hrows : ∀ row ∈ rows, IsShown row.2)
    (hadd : sidList.foldlM (addTrustee names currentSidStringList) rows = some rows') :
    ∀ row ∈ rows', IsShown row.2 := by
  induction sidList generalizing rows with
  | nil =>
    rw [← Option.some_inj.1 hadd]
    exact hrows
  | cons sid sidList ih =>
    obtain ⟨hsid, hrest⟩ := List.forall_mem_cons.1 h
    rw [List.foldlM_cons] at hadd
    obtain ⟨rows₁, hfirst, hadd⟩ := Option.bind_eq_some_iff.1 hadd
    exact ih hrest (isShown_addTrustee hsid hrows hfirst) hadd

/-- A press of the button, with rows that can be shown. -/
theorem isSome_onAddTrusteeButton_iff (names : QString → QString)
    (hrows : ∀ row ∈ rows, IsShown row.2) {objects : List AdObject}
    (h : ∀ object ∈ objects, IsObjectSid (object.getValue "objectSid")) :
    (onAddTrusteeButton names rows objects).isSome = true ↔
      ∀ object ∈ objects, object.getValue "objectSid" ≠ [] := by
  rw [← List.forall_mem_map] at h
  refine (Guarded.isSome_iff (Guarded.bind
    (Guarded.mapM fun row _ => guarded_objectSidDisplayValue (Prod.snd row)) fun _ =>
      Guarded.foldlM (P := fun sid => sid ≠ [])
        (fun sid hsid rows => guarded_addTrustee names _ rows (h sid hsid)) rows)).trans ?_
  rw [and_iff_right fun row hrow => (hrows row hrow).2, List.forall_mem_map]

theorem isShown_onAddTrusteeButton (hrows : ∀ row ∈ rows, IsShown row.2) {objects : List AdObject}
    (h : ∀ object ∈ objects, IsObjectSid (object.getValue "objectSid")) {rows' : List TrusteeRow}
    (hadd : onAddTrusteeButton names rows objects = some rows') : ∀ row ∈ rows', IsShown row.2 := by
  rw [← List.forall_mem_map] at h
  obtain ⟨_, -, hadd⟩ := Option.bind_eq_some_iff.1 hadd
  exact isShown_foldlM h hrows hadd

/-- No matter how often trustees are added, no access is outside of an array as long as all of
    them have an identifier. -/
theorem isSome_presses_iff (hrows : ∀ row ∈ rows, IsShown row.2) {presses : List (List AdObject)}
    (h : ∀ objects ∈ presses, ∀ object ∈ objects, IsObjectSid (object.getValue "objectSid")) :
    (presses.foldlM (onAddTrusteeButton names) rows).isSome = true ↔
      ∀ objects ∈ presses, ∀ object ∈ objects, object.getValue "objectSid" ≠ [] := by
  induction presses generalizing rows with
  | nil => exact iff_of_true rfl nofun
  | cons objects presses ih =>
    rw [List.forall_mem_cons] at h ⊢
    rw [← isSome_onAddTrusteeButton_iff names hrows h.1, List.foldlM_cons]
    cases hpress : onAddTrusteeButton names rows objects with
    | none => exact iff_of_false Bool.false_ne_true fun hall => Bool.false_ne_true hall.1
    | some rows' =>
      refine (ih (isShown_onAddTrusteeButton hrows h.1 hpress) h.2).trans ?_
      exact (and_iff_right rfl).symm

end

/-! ## The result -/

/-- The rows of the trustees of a descriptor, before any are added. -/
def descriptorRows (names : QString → QString) (sids : List DomSidStruct) : List TrusteeRow :=
  sids.map fun sid => (names (domSidString (some sid.domSid)), domSidToBytes sid)

/-- Each identifier on its own, the trustees that are added, and structures. -/
theorem sidBytes_iff (bytes : QByteArray) (names : QString → QString) (sids : List DomSidStruct)
    (presses : List (List AdObject)) (sid : DomSidStruct) :
    (IsObjectSid bytes → (ReadWithin bytes ↔ bytes.length = sizeofDomSid)) ∧
    ((∀ sid ∈ sids, subAuthsCount sid.numAuths ≤ 15) →
      (∀ objects ∈ presses, ∀ object ∈ objects, IsObjectSid (object.getValue "objectSid")) →
      ((presses.foldlM (onAddTrusteeButton names) (descriptorRows names sids)).isSome = true ↔
        ∀ objects ∈ presses, ∀ object ∈ objects, object.getValue "objectSid" ≠ [])) ∧
    domSidFromBytes (domSidToBytes sid) = some sid := by
  refine ⟨readWithin_iff, fun hsids => ?_, domSidFromBytes_domSidToBytes sid⟩
  refine isSome_presses_iff fun row hrow => ?_
  obtain ⟨sid, hsid, rfl⟩ := List.mem_map.1 hrow
  exact isShown_domSidToBytes (hsids sid hsid)

/-- The bytes of S-1-5-32-544, the administrators. -/
def administratorsSid : QByteArray := [1, 2, 0, 0, 0, 0, 0, 5, 32, 0, 0, 0, 32, 2, 0, 0]

theorem isObjectSid_administratorsSid : IsObjectSid administratorsSid :=
  .inr ⟨2, by decide, rfl, rfl⟩

/-- The identifier of the administrators is not read within its bytes. -/
theorem sidBytes_iff_administrators : ¬ ReadWithin administratorsSid := by
  have hwithin := (sidBytes_iff administratorsSid id [] []
    ⟨0, 0, fun _ => 0, fun _ => 0⟩).1 isObjectSid_administratorsSid
  exact fun h => absurd (hwithin.1 h) (by decide)

/-- It is shown, but a copy of it reaches past its end; nothing can be read of an absent one. -/
theorem not_sidBytes :
    (IsObjectSid administratorsSid ∧
      objectSidDisplayValue administratorsSid = some "S-1-5-32-544".toList ∧
      domSidFromBytes administratorsSid = none) ∧
    IsObjectSid [] ∧ objectSidDisplayValue [] = none ∧ domSidFromBytes [] = none :=
  ⟨⟨isObjectSid_administratorsSid, by decide, by decide⟩, .inl rfl, by decide, by decide⟩

end Admc.ByteAccess
