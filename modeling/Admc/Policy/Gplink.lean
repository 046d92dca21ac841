import Admc.Config
import Admc.Lib.Move
import Admc.Text
import Mathlib.Data.Int.ConditionallyCompleteOrder
import Mathlib.Data.Set.Function
import Mathlib.Order.ConditionallyCompleteLattice.Basic
import Mathlib.Order.Interval.Set.Defs

/-!
# Links to group policies

`class Gplink`: the ordered list of the policies (GPO) that are linked to an
object, each with options, read from the text of an attribute and written back
to it. The DNs of the policies are kept in lower case, in a list, and as the keys
of a hash table for the options.

* `wf_edit`: the edits keep the list and the table in step (`Gplink.Wf`);
* `consistent_run_iff`: they are in step after any edits of what is read from a
  text exactly when no two of its parts name the same policy. Adding a policy
  checks for this; reading does not.
-/

namespace Admc

/-- `enum GplinkOption`. -/
inductive GplinkOption
  | noOption
  | disabled
  | enforced
  deriving DecidableEq, Repr

/-- The value of the option in the enumeration. -/
def GplinkOption.bits : GplinkOption → BitVec 32
  | noOption => 0
  | disabled => 1
  | enforced => 2

/-- `class Gplink`. -/
structure Gplink where
  gpoList : List QString
  options : QHash QString (BitVec 32)
  deriving DecidableEq

/-- `LDAP_PREFIX`. -/
def ldapPrefix : QString := "LDAP://".toList

section
variable (tables : CaseTables)

/-- `ldap_to_gpo`. -/
def ldapToGpo (text : QString) : QString := tables.lower (removeText ldapPrefix text)

/-- The loop of `gpo_dn_to_gplink_case`, from the components so far. -/
def gpoDnToGplinkCaseFrom (rdnList : List QString) :
    List QString → (rdnListCase : List QString) → QString
  | [], rdnListCase => [','].intercalate rdnListCase
  | rdn :: rdns, rdnListCase =>
    match rdn.splitOn '=' with
    | [attr, value] =>
      let attributeCase := if attr = "dc".toList then tables.upper attr else attr
      let valueCase := if indexOf rdnList rdn = 0 then tables.upper value else value
      gpoDnToGplinkCaseFrom rdnList rdns
        (rdnListCase ++ [['='].intercalate [attributeCase, valueCase]])
    | _ => rdn

/-- `gpo_dn_to_gplink_case`: a component that has not one "=" is all that comes out. -/
def gpoDnToGplinkCase (rdnList : List QString) : QString :=
  gpoDnToGplinkCaseFrom tables rdnList rdnList []

namespace Gplink

/-- `Gplink::Gplink()`. -/
def empty : Gplink := ⟨[], []⟩

/-- One part of the text in `Gplink::Gplink(const QString &)`. -/
def readPart (gplink : Gplink) (part : QString) : Gplink :=
  if part = [] then gplink
  else
    match part.splitOn ';' with
    | [gpoText, optionString] =>
      let gpo := ldapToGpo tables gpoText
      let option := BitVec.ofInt 32 (toInt optionString)
      ⟨gpo :: gplink.gpoList, gplink.options.insert gpo option⟩
    | _ => gplink

/-- The parts of the text in `Gplink::Gplink(const QString &)`. -/
def parts (gplinkString : QString) : List QString :=
  (replaceText ['['] [] gplinkString).splitOn ']'

/-- `Gplink::Gplink(const QString &)`. -/
def ofString (gplinkString : QString) : Gplink :=
  if gplinkString = [] then empty else (parts gplinkString).foldl (readPart tables) empty

/-- The text of one link in `Gplink::to_string`. -/
def partText (gpoCase : QString) (option : BitVec 32) : QString :=
  '[' :: ldapPrefix ++ gpoCase ++ ';' :: number option.toInt ++ [']']

/-- `Gplink::to_string`. -/
def toString (gplink : Gplink) : QString :=
  (gplink.gpoList.reverse.map fun gpo =>
    partText (gpoDnToGplinkCase tables (gpo.splitOn ',')) (gplink.options.value gpo 0)).flatten

variable (gplink : Gplink) (gpoCase : QString)

/-- `Gplink::contains`. -/
def contains : Bool := gplink.options.contains (tables.lower gpoCase)

/-- `Gplink::add`. -/
def add : Gplink :=
  let gpo := tables.lower gpoCase
  if gplink.contains tables gpo then gplink
  else ⟨gplink.gpoList ++ [gpo], gplink.options.insert gpo 0⟩

/-- `Gplink::remove`. -/
def remove : Gplink :=
  let gpo := tables.lower gpoCase
  if ¬gplink.contains tables gpo then gplink
  else ⟨gplink.gpoList.filter (· ≠ gpo), gplink.options.remove gpo⟩

/-- `Gplink::move_up`. -/
def moveUp : Gplink :=
  let gpo := tables.lower gpoCase
  if ¬gplink.contains tables gpo then gplink
  else
    let currentIndex := indexOf gplink.gpoList gpo
    if currentIndex > 0 then
      { gplink with gpoList := gplink.gpoList.moveItem currentIndex.toNat (currentIndex - 1).toNat }
    else gplink

/-- `Gplink::move_down`. -/
def moveDown : Gplink :=
  let gpo := tables.lower gpoCase
  if ¬gplink.contains tables gpo then gplink
  else
    let currentIndex := indexOf gplink.gpoList gpo
    if currentIndex < gplink.gpoList.length - 1 then
      { gplink with gpoList := gplink.gpoList.moveItem currentIndex.toNat (currentIndex + 1).toNat }
    else gplink

/-- `Gplink::move`. -/
def move (fromOrder toOrder : ℤ) : Gplink :=
  if fromOrder > gplink.gpoList.length ∨ toOrder > gplink.gpoList.length ∨ fromOrder < 1 ∨
      toOrder < 1 then gplink
  else
    { gplink with gpoList := gplink.gpoList.moveItem (fromOrder - 1).toNat (toOrder - 1).toNat }

/-- `Gplink::get_option`. -/
def getOption (option : GplinkOption) : Bool :=
  let gpo := tables.lower gpoCase
  gplink.contains tables gpo && bitmaskIsSet (gplink.options.value gpo 0) option.bits

/-- `Gplink::set_option`. -/
def setOption (option : GplinkOption) (value : Bool) : Gplink :=
  let gpo := tables.lower gpoCase
  if ¬gplink.contains tables gpo then gplink
  else
    { gplink with
      options := gplink.options.insert gpo
        (bitmaskSet (gplink.options.value gpo 0) option.bits value) }

/-- `Gplink::get_gpo_order`. -/
def getGpoOrder : ℤ := indexOf gplink.gpoList (tables.lower gpoCase) + 1

/-- `Gplink::get_max_order`. -/
def getMaxOrder : ℤ := gplink.gpoList.length

end Gplink

/-! ## Edits -/

/-- The functions that change a `Gplink`. -/
inductive GplinkEdit
  | add (gpo : QString)
  | remove (gpo : QString)
  | moveUp (gpo : QString)
  | moveDown (gpo : QString)
  | move (fromOrder toOrder : ℤ)
  | setOption (gpo : QString) (option : GplinkOption) (value : Bool)

/-- The effect of an edit. -/
def Gplink.edit (gplink : Gplink) : GplinkEdit → Gplink
  | .add gpo => gplink.add tables gpo
  | .remove gpo => gplink.remove tables gpo
  | .moveUp gpo => gplink.moveUp tables gpo
  | .moveDown gpo => gplink.moveDown tables gpo
  | .move fromOrder toOrder => gplink.move fromOrder toOrder
  | .setOption gpo option value => gplink.setOption tables gpo option value

/-- The effect of edits, one after another. -/
def Gplink.run (gplink : Gplink) (edits : List GplinkEdit) : Gplink :=
  edits.foldl (Gplink.edit tables) gplink

end

variable {tables : CaseTables} {gplink gplink' : Gplink}

/-! ## The list and the table -/

namespace Gplink

/-- The list has no duplicates, the table has options for the policies in the list, and
    these are in lower case. -/
structure Wf (tables : CaseTables) (gplink : Gplink) : Prop where
  nodup : gplink.gpoList.Nodup
  mem_keys : ∀ gpo, gpo ∈ gplink.options.keys ↔ gpo ∈ gplink.gpoList
  lower_eq : ∀ gpo ∈ gplink.gpoList, tables.lower gpo = gpo

theorem wf_empty (tables : CaseTables) : empty.Wf tables :=
  ⟨List.nodup_nil, fun _ => Iff.rfl, fun _ h => absurd h List.not_mem_nil⟩

theorem contains_lower {gpo : QString} :
    gplink.contains tables (tables.lower gpo) = true ↔
      tables.lower gpo ∈ gplink.options.keys := by
  rw [contains, QHash.contains_iff, CaseTables.lower_lower]

/-- The policies may be rearranged. -/
theorem Wf.of_perm (h : gplink.Wf tables) (hlist : gplink'.gpoList.Perm gplink.gpoList)
    (hkeys : ∀ gpo, gpo ∈ gplink'.options.keys ↔ gpo ∈ gplink.options.keys) :
    gplink'.Wf tables where
  nodup := hlist.nodup_iff.2 h.nodup
  mem_keys gpo := (hkeys gpo).trans ((h.mem_keys gpo).trans hlist.mem_iff.symm)
  lower_eq gpo hmem := h.lower_eq gpo (hlist.mem_iff.1 hmem)

theorem Wf.add (h : gplink.Wf tables) (gpo : QString) : (gplink.add tables gpo).Wf tables := by
  unfold Gplink.add
  dsimp only
  split_ifs with hcontains
  · exact h
  · rw [contains_lower, h.mem_keys] at hcontains
    refine ⟨?_, fun gpo' => ?_, fun gpo' hmem => ?_⟩
    · rw [List.nodup_append]
      refine ⟨h.nodup, List.nodup_singleton _, fun a ha b hb => ?_⟩
      rw [List.mem_singleton.1 hb]
      exact fun heq => hcontains (heq ▸ ha)
    · rw [QHash.mem_keys_insert, List.mem_append, List.mem_singleton, h.mem_keys, or_comm]
    · rcases List.mem_append.1 hmem with hmem | hmem
      · exact h.lower_eq gpo' hmem
      · rw [List.mem_singleton.1 hmem, CaseTables.lower_lower]

theorem Wf.remove (h : gplink.Wf tables) (gpo : QString) :
    (gplink.remove tables gpo).Wf tables := by
  unfold Gplink.remove
  dsimp only
  split_ifs with hcontains
  swap
  · exact h
  · refine ⟨h.nodup.filter _, fun gpo' => ?_, fun gpo' hmem => ?_⟩
    · rw [QHash.mem_keys_remove, List.mem_filter, h.mem_keys, decide_eq_true_iff, and_comm]
    · exact h.lower_eq gpo' (List.mem_of_mem_filter hmem)

theorem moveUp_perm (gpo : QString) : (gplink.moveUp tables gpo).gpoList.Perm gplink.gpoList := by
  rw [Gplink.moveUp]
  dsimp only
  split_ifs with hcontains hpos
  · have hlt := indexOf_lt gplink.gpoList (tables.lower gpo)
    exact List.moveItem_perm (by omega)
  all_goals exact .refl _

theorem moveDown_perm (gpo : QString) :
    (gplink.moveDown tables gpo).gpoList.Perm gplink.gpoList := by
  rw [Gplink.moveDown]
  dsimp only
  split_ifs with hcontains hlt
  · have hneg := neg_one_le_indexOf gplink.gpoList (tables.lower gpo)
    exact List.moveItem_perm (by omega)
  all_goals exact .refl _

theorem move_perm (fromOrder toOrder : ℤ) :
    (gplink.move fromOrder toOrder).gpoList.Perm gplink.gpoList := by
  rw [Gplink.move]
  split_ifs with horders
  · exact .refl _
  · exact List.moveItem_perm (by omega)

theorem moveUp_options (gpo : QString) : (gplink.moveUp tables gpo).options = gplink.options := by
  rw [Gplink.moveUp]
  dsimp only
  split_ifs <;> rfl

theorem moveDown_options (gpo : QString) :
    (gplink.moveDown tables gpo).options = gplink.options := by
  rw [Gplink.moveDown]
  dsimp only
  split_ifs <;> rfl

theorem move_options (fromOrder toOrder : ℤ) :
    (gplink.move fromOrder toOrder).options = gplink.options := by
  rw [Gplink.move]
  split_ifs <;> rfl

theorem Wf.setOption (h : gplink.Wf tables) (gpo : QString) (option : GplinkOption)
    (value : Bool) : (gplink.setOption tables gpo option value).Wf tables := by
  unfold Gplink.setOption
  dsimp only
  split_ifs with hcontains
  swap
  · exact h
  · rw [contains_lower] at hcontains
    refine h.of_perm (.refl _) fun gpo' => ?_
    rw [QHash.mem_keys_insert, or_iff_right_of_imp]
    rintro rfl
    exact hcontains

/-- The edits keep the list and the table in step. -/
theorem Wf.edit (h : gplink.Wf tables) (e : GplinkEdit) : (gplink.edit tables e).Wf tables := by
  cases e with
  | add gpo => exact h.add gpo
  | remove gpo => exact h.remove gpo
  | moveUp gpo => exact h.of_perm (moveUp_perm gpo) fun _ => by rw [Gplink.edit, moveUp_options]
  | moveDown gpo => exact h.of_perm (moveDown_perm gpo) fun _ => by rw [Gplink.edit, moveDown_options]
  | move fromOrder toOrder =>
    exact h.of_perm (move_perm fromOrder toOrder) fun _ => by rw [Gplink.edit, move_options]
  | setOption gpo option value => exact h.setOption gpo option value

theorem Wf.run (h : gplink.Wf tables) (edits : List GplinkEdit) :
    (gplink.run tables edits).Wf tables := by
  induction edits generalizing gplink with
  | nil => exact h
  | cons e edits ih => exact ih (h.edit e)

/-! ## Reading a text -/

/-- The policy that a part of a text names: what comes before its only ";", without the
    prefix, and in lower case. -/
def namedGpo (tables : CaseTables) (part : QString) : Option QString :=
  match part.splitOn ';' with
  | [gpoText, _] => some (ldapToGpo tables gpoText)
  | _ => none

theorem lower_namedGpo {part gpo : QString} (h : namedGpo tables part = some gpo) :
    tables.lower gpo = gpo := by
  rw [namedGpo] at h
  split at h
  · rw [← Option.some.inj h, ldapToGpo, CaseTables.lower_lower]
  · exact absurd h nofun

theorem readPart_gpoList (part : QString) :
    (readPart tables gplink part).gpoList = (namedGpo tables part).toList ++ gplink.gpoList := by
  rw [readPart, namedGpo]
  split_ifs with hempty
  · rw [hempty]
    rfl
  · split <;> rfl

theorem mem_keys_readPart (part gpo : QString) :
    gpo ∈ (readPart tables gplink part).options.keys ↔
      namedGpo tables part = some gpo ∨ gpo ∈ gplink.options.keys := by
  rw [readPart, namedGpo]
  split_ifs with hempty
  · rw [hempty]
    simp
  · split
    · rw [QHash.mem_keys_insert, Option.some_inj, eq_comm]
    · simp

theorem foldl_readPart_gpoList (parts : List QString) :
    (parts.foldl (readPart tables) gplink).gpoList =
      (parts.filterMap (namedGpo tables)).reverse ++ gplink.gpoList := by
  induction parts generalizing gplink with
  | nil => rfl
  | cons part parts ih =>
    rw [List.foldl_cons, ih, readPart_gpoList]
    cases h : namedGpo tables part with
    | none => rw [List.filterMap_cons_none h]; rfl
    | some gpo =>
      rw [List.filterMap_cons_some h, List.reverse_cons, List.append_assoc]
      rfl

theorem mem_keys_foldl_readPart (parts : List QString) (gpo : QString) :
    gpo ∈ (parts.foldl (readPart tables) gplink).options.keys ↔
      gpo ∈ parts.filterMap (namedGpo tables) ∨ gpo ∈ gplink.options.keys := by
  induction parts generalizing gplink with
  | nil => simp
  | cons part parts ih =>
    rw [List.foldl_cons, ih, mem_keys_readPart, List.mem_filterMap, List.mem_filterMap,
      List.exists_mem_cons_iff]
    exact or_left_comm.trans or_assoc.symm

/-- The option that a part of a text gives. -/
def partOption (part : QString) : BitVec 32 :=
  match part.splitOn ';' with
  | [_, optionString] => BitVec.ofInt 32 (toInt optionString)
  | _ => 0

theorem readPart_value (part gpo : QString) :
    (readPart tables gplink part).options.value gpo 0 =
      if namedGpo tables part = some gpo then partOption part
      else gplink.options.value gpo 0 := by
  rw [readPart, namedGpo, partOption]
  split_ifs with hempty hnamed hnamed
  · rw [hempty] at hnamed
    exact absurd hnamed nofun
  · rfl
  · split at hnamed
    · rw [← Option.some.inj hnamed, QHash.value_insert, if_pos rfl]
    · exact absurd hnamed nofun
  · split at hnamed
    · rw [QHash.value_insert, if_neg fun h => hnamed (congrArg some h.symm)]
    · rfl

/-- The option of a policy is the one that the parts that name it agree on. -/
theorem foldl_readPart_value {parts : List QString} {gpo : QString} {option : BitVec 32}
    (hparts : ∀ part ∈ parts, namedGpo tables part = some gpo → partOption part = option)
    (h : gpo ∈ parts.filterMap (namedGpo tables) ∨ gplink.options.value gpo 0 = option) :
    (parts.foldl (readPart tables) gplink).options.value gpo 0 = option := by
  induction parts generalizing gplink with
  | nil => exact h.resolve_left List.not_mem_nil
  | cons part parts ih =>
    rw [List.forall_mem_cons] at hparts
    refine ih hparts.2 ?_
    rw [readPart_value]
    split_ifs with hnamed
    · exact .inr (hparts.1 hnamed)
    · refine h.imp_left fun h => ?_
      rw [List.mem_filterMap, List.exists_mem_cons_iff] at h
      exact List.mem_filterMap.2 (h.resolve_left hnamed)

theorem ofString_eq (gplinkString : QString) :
    ofString tables gplinkString = (parts gplinkString).foldl (readPart tables) empty := by
  rw [ofString]
  split_ifs with hempty
  · rw [hempty]
    rfl
  · rfl

theorem ofString_gpoList (gplinkString : QString) : (ofString tables gplinkString).gpoList =
    ((parts gplinkString).filterMap (namedGpo tables)).reverse := by
  rw [ofString_eq, foldl_readPart_gpoList]
  exact List.append_nil _

/-- What is read is in step if no policy is named twice. -/
theorem wf_ofString {gplinkString : QString}
    (h : ((parts gplinkString).filterMap (namedGpo tables)).Nodup) :
    (ofString tables gplinkString).Wf tables where
  nodup := by
    rw [ofString_gpoList, List.nodup_reverse]
    exact h
  mem_keys gpo := by
    rw [ofString_gpoList, List.mem_reverse, ofString_eq, mem_keys_foldl_readPart]
    exact or_iff_left List.not_mem_nil
  lower_eq gpo hmem := by
    rw [ofString_gpoList, List.mem_reverse, List.mem_filterMap] at hmem
    obtain ⟨part, -, hpart⟩ := hmem
    exact lower_namedGpo hpart

/-! ## Consistency -/

/-- The list of policies has no duplicates, the table has options for the policies in the
    list, and the orders of these are the numbers up to the highest order. -/
structure Consistent (tables : CaseTables) (gplink : Gplink) : Prop where
  nodup : gplink.gpoList.Nodup
  mem_keys : ∀ gpo, gpo ∈ gplink.options.keys ↔ gpo ∈ gplink.gpoList
  bijOn_order : Set.BijOn (gplink.getGpoOrder tables) {gpo | gpo ∈ gplink.gpoList}
    (Set.Icc 1 gplink.getMaxOrder)

/-- The order of a policy in the list. -/
theorem Wf.getGpoOrder_getElem (h : gplink.Wf tables) {i : ℕ} (hi : i < gplink.gpoList.length) :
    gplink.getGpoOrder tables gplink.gpoList[i] = i + 1 := by
  rw [getGpoOrder, h.lower_eq _ (List.getElem_mem hi), indexOf_getElem h.nodup]

theorem Wf.consistent (h : gplink.Wf tables) : gplink.Consistent tables where
  nodup := h.nodup
  mem_keys := h.mem_keys
  bijOn_order := by
    refine ⟨fun gpo hgpo => ?_, fun gpo hgpo gpo' hgpo' heq => ?_, fun order horder => ?_⟩
    · obtain ⟨i, hi, rfl⟩ := List.getElem_of_mem hgpo
      rw [h.getGpoOrder_getElem hi, Set.mem_Icc, getMaxOrder]
      omega
    · obtain ⟨i, hi, rfl⟩ := List.getElem_of_mem hgpo
      obtain ⟨j, hj, rfl⟩ := List.getElem_of_mem hgpo'
      rw [h.getGpoOrder_getElem hi, h.getGpoOrder_getElem hj] at heq
      congr 1
      omega
    · rw [Set.mem_Icc, getMaxOrder] at horder
      have hi : (order - 1).toNat < gplink.gpoList.length := by omega
      refine ⟨gplink.gpoList[(order - 1).toNat], List.getElem_mem hi, ?_⟩
      rw [h.getGpoOrder_getElem hi]
      omega

/-- Whatever is done to what is read from a text, the list and the table stay in step and
    the orders are right, exactly when no two parts of the text name the same policy. -/
theorem consistent_run_iff (tables : CaseTables) (gplinkString : QString) :
    (∀ edits, ((ofString tables gplinkString).run tables edits).Consistent tables) ↔
      ((parts gplinkString).filterMap (namedGpo tables)).Nodup := by
  refine ⟨fun h => ?_, fun h edits => ((wf_ofString h).run edits).consistent⟩
  have hnodup := (h []).nodup
  rwa [run, List.foldl_nil, ofString_gpoList, List.nodup_reverse] at hnodup

/-- A text that names a policy twice, in different letter cases. -/
theorem not_consistent_ofString_twice :
    ¬(ofString .ascii "[LDAP://cn={31B2},dc=alt;0][LDAP://CN={31b2},DC=alt;1]".toList).Consistent
      .ascii := by
  intro h
  exact absurd h.nodup (by decide)

end Gplink

end Admc
