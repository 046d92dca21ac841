import Admc.Interface.Server
import Admc.Lib.DistinguishedName
import Admc.Text

/-!
# Names of objects

The functions that take the DN of an object apart, and those that rename and move
an object on the server. All of them cut at the first commas and equals signs of
the text, whether these are escaped or not.

`surgery_iff`: for each of them, exactly for which DNs it does what it says. Most
of them are right exactly when there is no comma in the first RDN.
-/

namespace Admc

/-! ## The functions -/

/-- `dn_get_rdn`. -/
def dnGetRdn (dn : QString) : QString := (dn.splitOn ',').headD []

/-- What `dn_get_name` does to a name. -/
def unescapeName (name : QString) : QString := replaceText ['\\', '?'] ['?'] name

/-- `dn_get_name`. -/
def dnGetName (dn : QString) : QString :=
  let equalsI := indexOf dn '=' + 1
  let commaI := indexOf dn ','
  let segmentLength := commaI - equalsI
  unescapeName (mid dn equalsI segmentLength)

/-- `dn_get_parent`. -/
def dnGetParent (dn : QString) : QString :=
  let commaI := indexOf dn ','
  mid dn (commaI + 1) (-1)

/-- `escape_name_for_dn`. -/
def escapeNameForDn (unescaped : QString) : QString := replaceText ['?'] ['\\', '?'] unescaped

/-- `dn_rename`. -/
def dnRename (dn newName : QString) : QString :=
  let explodedDn := dn.splitOn ','
  let oldRdn := explodedDn.headD []
  let prefixIndex := indexOf oldRdn '=' + 1
  let newRdn := oldRdn.take prefixIndex.toNat ++ escapeNameForDn newName
  [','].intercalate (explodedDn.set 0 newRdn)

/-- `dn_move`. -/
def dnMove (dn newParentDn : QString) : QString := dnGetRdn dn ++ ',' :: newParentDn

/-- What `ldap_rename_s` is asked for: the new RDN of an object, and its new parent, if it is
    another one. -/
structure RenameRequest where
  dn : QString
  newRdn : QString
  newParent : Option QString
  deriving DecidableEq

section
variable {σ : Type} (rename : σ → RenameRequest → σ × LdapResult) (s : σ)

/-- A request, and whether it succeeds. -/
def sendRename (request : RenameRequest) : σ × Bool :=
  let (s, result) := rename s request
  (s, result = .success)

/-- `AdInterface::object_move`. -/
def objectMove (dn newContainer : QString) : σ × Bool :=
  let rdn := (dn.splitOn ',').headD []
  sendRename rename s ⟨dn, rdn, some newContainer⟩

/-- `AdInterface::object_rename`. -/
def objectRename (dn newName : QString) : σ × Bool :=
  let newDn := dnRename dn newName
  let newRdn := (newDn.splitOn ',').headD []
  sendRename rename s ⟨dn, newRdn, none⟩

end

/-- What is sent does not depend on the server. -/
theorem sendRename_inj {request request' : RenameRequest}
    (h : ∀ {σ : Type} (rename : σ → RenameRequest → σ × LdapResult) (s : σ),
      sendRename rename s request = sendRename rename s request') : request = request' := by
  -- a server that keeps the request
  have hkept := h (fun (_ : Option RenameRequest) request => (some request, .success)) none
  exact Option.some.inj (Prod.mk.inj hkept).1

/-! ## Up to the first comma -/

/-- What follows a part of a text that has no comma. -/
def commaTail : Option QString → QString
  | none => []
  | some t => ',' :: t

theorem exists_commaTail (text : QString) :
    ∃ p t, ',' ∉ p ∧ text = p ++ commaTail t ∧ (t = none ↔ ',' ∉ text) := by
  obtain ⟨p, cs, hsplit⟩ := List.exists_cons_of_ne_nil (List.splitOn_ne_nil ',' text)
  obtain ⟨hp, ⟨-, rfl⟩ | ⟨t, rfl, -⟩⟩ := Path.exists_of_splitOn_eq_cons hsplit
  · exact ⟨text, none, hp, (List.append_nil _).symm, iff_of_true rfl hp⟩
  · exact ⟨p, some t, hp, rfl, iff_of_false (Option.some_ne_none t)
      (not_not.2 (List.mem_append_right _ List.mem_cons_self))⟩

theorem commaTail_append (t u : Option QString) : commaTail t ++ commaTail u =
    commaTail (t.elim u fun t => some (t ++ commaTail u)) := by
  cases t with
  | none => rfl
  | some t => rfl

variable {p : QString} {t : Option QString}

theorem splitOn_commaTail (h : ',' ∉ p) :
    (p ++ commaTail t).splitOn ',' = p :: t.elim [] (List.splitOn ',') := by
  cases t with
  | none => rw [commaTail, List.append_nil, List.splitOn_eq_singleton h]; rfl
  | some t => exact List.splitOn_append_cons_self_of_not_mem h t

theorem commaTail_inj {t u : Option QString} (h : commaTail t = commaTail u) : t = u := by
  cases t with
  | none =>
    cases u with
    | none => rfl
    | some u => exact absurd h.symm (List.cons_ne_nil _ _)
  | some t =>
    cases u with
    | none => exact absurd h (List.cons_ne_nil _ _)
    | some u => exact congrArg some (List.cons.inj h).2

/-- The part before the first comma, and what follows. -/
theorem append_commaTail_inj {p q : QString} {t u : Option QString} (hp : ',' ∉ p) (hq : ',' ∉ q)
    (h : p ++ commaTail t = q ++ commaTail u) : p = q ∧ t = u := by
  have hsplit := congrArg (List.splitOn ',') h
  rw [splitOn_commaTail hp, splitOn_commaTail hq] at hsplit
  obtain rfl := (List.cons.inj hsplit).1
  exact ⟨rfl, commaTail_inj (List.append_cancel_left h)⟩

/-- A text is put together again, after another part. -/
theorem intercalate_cons_commaTail (p : QString) (t : Option QString) :
    [','].intercalate (p :: t.elim [] (List.splitOn ',')) = p ++ commaTail t := by
  cases t with
  | none => exact (List.intercalate_singleton).trans (List.append_nil p).symm
  | some t =>
    obtain ⟨c, cs, hsplit⟩ := List.exists_cons_of_ne_nil (List.splitOn_ne_nil ',' t)
    dsimp only [Option.elim]
    rw [hsplit, Path.intercalate_cons_cons, ← hsplit, List.intercalate_splitOn]
    rfl

theorem indexOf_commaTail (h : ',' ∉ p) :
    indexOf (p ++ commaTail t) ',' = t.elim (-1) fun _ => (p.length : ℤ) := by
  cases t with
  | none => rw [commaTail, List.append_nil]; exact indexOf_of_not_mem h
  | some t => exact indexOf_append_cons h

theorem dnGetRdn_commaTail (h : ',' ∉ p) : dnGetRdn (p ++ commaTail t) = p := by
  rw [dnGetRdn, splitOn_commaTail h]
  rfl

theorem dnGetParent_commaTail (h : ',' ∉ p) :
    dnGetParent (p ++ commaTail t) = t.getD p := by
  rw [dnGetParent, indexOf_commaTail h]
  cases t with
  | none => exact List.append_nil p
  | some t =>
    show (p ++ ',' :: t).drop ((p.length : ℤ) + 1).toNat = t
    rw [show ((p.length : ℤ) + 1).toNat = p.length + 1 by omega, List.drop_length_add_append]
    rfl

theorem dnMove_commaTail (h : ',' ∉ p) (newParentDn : QString) :
    dnMove (p ++ commaTail t) newParentDn = p ++ ',' :: newParentDn := by
  rw [dnMove, dnGetRdn_commaTail h]

section
variable {type value : QString}

theorem dnGetName_commaTail (htype : '=' ∉ type) (h : ',' ∉ type ++ '=' :: value) :
    dnGetName (type ++ '=' :: value ++ commaTail t) = unescapeName value := by
  rw [dnGetName, indexOf_commaTail h, List.append_assoc, List.cons_append,
    indexOf_append_cons htype]
  congr 1
  have hdrop : (type ++ '=' :: (value ++ commaTail t)).drop ((type.length : ℤ) + 1).toNat =
      value ++ commaTail t := by
    rw [show ((type.length : ℤ) + 1).toNat = type.length + 1 by omega,
      List.drop_length_add_append]
    rfl
  have hlength : (type ++ '=' :: value).length = type.length + ('=' :: value).length :=
    List.length_append
  rw [List.length_cons] at hlength
  cases t with
  | none =>
    rw [mid, if_pos (by dsimp only [Option.elim]; omega), hdrop]
    exact List.append_nil value
  | some t =>
    dsimp only [Option.elim]
    rw [mid, if_neg (by omega), show ((type.length : ℤ) + 1 + ((type ++ '=' :: value).length -
      (type.length + 1))).toNat = (type.length + 1) + value.length by omega, List.drop_take,
      show ((type.length : ℤ) + 1).toNat = type.length + 1 by omega] at *
    rw [hdrop, Nat.add_sub_cancel_left, List.take_left]

theorem dnRename_commaTail (htype : '=' ∉ type) (h : ',' ∉ type ++ '=' :: value)
    (newName : QString) : dnRename (type ++ '=' :: value ++ commaTail t) newName =
      type ++ '=' :: escapeNameForDn newName ++ commaTail t := by
  rw [dnRename, splitOn_commaTail h]
  dsimp only [List.headD, List.set]
  rw [indexOf_append_cons htype, show ((type.length : ℤ) + 1).toNat = type.length + 1 by omega,
    List.take_length_add_append, intercalate_cons_commaTail]
  simp

end

/-! ## Valid names -/

variable (first : Dn.Rdn) (rest : List Dn.Rdn)

/-- The text of the parent, if there is one. -/
def parentText (rest : List Dn.Rdn) : Option QString :=
  if rest = [] then none else some (Dn.text rest)

theorem text_eq_commaTail : Dn.text (first :: rest) = first.text ++ commaTail (parentText rest) := by
  rw [Dn.text_cons, parentText]
  split_ifs
  · exact (List.append_nil _).symm
  · rfl

/-- An RDN up to its first comma. -/
structure Cut (first : Dn.Rdn) where
  type : Dn.AttributeType
  value : QString
  tail : Option QString
  text_eq : first.text = type.text ++ '=' :: value ++ commaTail tail
  comma_not_mem : ',' ∉ type.text ++ '=' :: value
  tail_eq_none : tail = none ↔ ',' ∉ first.text

theorem exists_cut : Nonempty (Cut first) := by
  obtain ⟨type, text, hfirst⟩ := first.exists_text
  obtain ⟨value, tail, hvalue, htext, hnone⟩ := exists_commaTail text
  have htype : ',' ∉ type.text := type.not_mem_text (by decide) (by decide) (by decide)
  refine ⟨⟨type, value, tail, by rw [hfirst, htext, List.append_assoc, List.cons_append], ?_, ?_⟩⟩
  · simp [htype, hvalue]
  · rw [hnone, hfirst]
    simp [htype]

namespace Cut

variable {first} (cut : Cut first)

theorem equals_not_mem : '=' ∉ cut.type.text :=
  cut.type.not_mem_text (by decide) (by decide) (by decide)

/-- A DN up to its first comma. -/
theorem dn_eq : Dn.text (first :: rest) = cut.type.text ++ '=' :: cut.value ++
    commaTail (cut.tail.elim (parentText rest) fun t => some (t ++ commaTail (parentText rest))) := by
  rw [text_eq_commaTail, cut.text_eq, List.append_assoc, commaTail_append]

theorem valueText_eq : first.valueText = cut.value ++ commaTail cut.tail := by
  rw [Dn.Rdn.valueText, cut.text_eq, List.append_assoc, List.cons_append,
    List.dropWhile_append_of_pos]
  · rfl
  · intro c hc
    exact decide_eq_true fun h => cut.equals_not_mem (h ▸ hc)

theorem append_commaTail_eq_left {p : QString} : p ++ commaTail cut.tail = p ↔ ',' ∉ first.text := by
  rw [← cut.tail_eq_none, List.append_right_eq_self]
  cases cut.tail with
  | none => exact iff_of_true rfl rfl
  | some t => exact iff_of_false (List.cons_ne_nil _ _) (Option.some_ne_none t)

theorem rdnText_ne_nil : cut.type.text ++ '=' :: cut.value ≠ [] :=
  List.append_ne_nil_of_right_ne_nil _ (List.cons_ne_nil _ _)

end Cut

/-- A DN is cut in the right place to leave its parent: its first RDN has no comma; or there is
    no parent, and the RDN ends in its only comma. -/
def ParentCutsRight (first : Dn.Rdn) (rest : List Dn.Rdn) : Prop :=
  (rest ≠ [] ∧ ',' ∉ first.text) ∨ (rest = [] ∧ ∃ p, ',' ∉ p ∧ first.text = p ++ [','])

variable {first} {rest}

theorem Cut.parentCutsRight_iff (cut : Cut first) : ParentCutsRight first rest ↔
    ',' :: Dn.text rest = commaTail cut.tail ++ commaTail (parentText rest) := by
  have hends : (∃ p, ',' ∉ p ∧ first.text = p ++ [',']) ↔ cut.tail = some [] := by
    constructor
    · rintro ⟨p, hp, hfirst⟩
      have htail : p ++ [','] = p ++ commaTail (some []) := rfl
      rw [cut.text_eq, htail] at hfirst
      exact (append_commaTail_inj cut.comma_not_mem hp hfirst).2
    · intro htail
      refine ⟨_, cut.comma_not_mem, ?_⟩
      rw [cut.text_eq, htail]
      rfl
  rw [ParentCutsRight, hends, ← cut.tail_eq_none, parentText]
  cases cut.tail with
  | none =>
    by_cases hrest : rest = []
    · rw [hrest]
      simp [commaTail]
    · rw [if_neg hrest]
      exact iff_of_true (.inl ⟨hrest, rfl⟩) rfl
  | some t =>
    by_cases hrest : rest = []
    · subst hrest
      simp [commaTail, eq_comm]
    · rw [if_neg hrest]
      refine iff_of_false (by simp [hrest]) fun h => ?_
      -- the parent would be shorter than itself
      have hlength := congrArg List.length h
      simp only [commaTail, List.length_cons, List.length_append] at hlength
      omega

/-! ## Each of the functions -/

variable (first rest)

theorem dnGetRdn_eq_iff : dnGetRdn (Dn.text (first :: rest)) = first.text ↔ ',' ∉ first.text := by
  obtain ⟨cut⟩ := exists_cut first
  rw [cut.dn_eq, dnGetRdn_commaTail cut.comma_not_mem, eq_comm, cut.text_eq,
    cut.append_commaTail_eq_left, cut.text_eq]

theorem dnGetName_eq_iff : dnGetName (Dn.text (first :: rest)) = unescapeName first.valueText ↔
    ',' ∉ first.text := by
  obtain ⟨cut⟩ := exists_cut first
  rw [cut.dn_eq, dnGetName_commaTail cut.equals_not_mem cut.comma_not_mem, cut.valueText_eq,
    ← cut.tail_eq_none]
  refine ⟨fun h => ?_, fun h => by rw [h]; exact congrArg unescapeName (List.append_nil _).symm⟩
  -- the commas tell them apart
  have hcount := congrArg (List.count ',') h
  rw [unescapeName, unescapeName, count_replaceText (by decide) (by decide) (by decide),
    count_replaceText (by decide) (by decide) (by decide), List.count_append] at hcount
  cases htail : cut.tail with
  | none => rfl
  | some t =>
    rw [htail, commaTail, List.count_cons_self] at hcount
    omega

theorem dnGetParent_eq_iff : dnGetParent (Dn.text (first :: rest)) = Dn.text rest ↔
    ParentCutsRight first rest := by
  obtain ⟨cut⟩ := exists_cut first
  rw [cut.parentCutsRight_iff, cut.dn_eq, dnGetParent_commaTail cut.comma_not_mem,
    commaTail_append]
  cases htail : cut.tail.elim (parentText rest) fun t => some (t ++ commaTail (parentText rest)) with
  | none =>
    refine iff_of_false (fun h => ?_) (List.cons_ne_nil _ _)
    have hrest : rest = [] := by
      by_contra hne
      rw [parentText, if_neg hne] at htail
      cases hcut : cut.tail <;> rw [hcut] at htail <;> exact Option.some_ne_none _ htail
    rw [hrest] at h
    exact cut.rdnText_ne_nil h
  | some t => exact ⟨fun h => congrArg (',' :: ·) h.symm, fun h => (List.cons.inj h).2.symm⟩

theorem dnMove_eq_iff (parent : List Dn.Rdn) :
    dnMove (Dn.text (first :: rest)) (Dn.text parent) = Dn.text (first :: parent) ↔
      ParentCutsRight first parent := by
  obtain ⟨cut⟩ := exists_cut first
  rw [cut.parentCutsRight_iff, cut.dn_eq, dnMove_commaTail cut.comma_not_mem,
    text_eq_commaTail first parent, cut.text_eq, List.append_assoc _ (commaTail cut.tail),
    List.append_right_inj]

theorem escapeNameForDn_question (name : QString) :
    escapeNameForDn ('?' :: name) = '\\' :: '?' :: escapeNameForDn name :=
  replaceText_append (List.cons_ne_nil '?' [])

theorem escapeNameForDn_cons {c : Char} (h : c ≠ '?') (name : QString) :
    escapeNameForDn (c :: name) = c :: escapeNameForDn name := by
  rw [escapeNameForDn, replaceText_cons_of_not_match]
  · rfl
  · rw [List.cons_prefix_cons]
    exact fun hp => h hp.1.symm

/-- Escaping question marks leaves what the escapes and commas of a name do. -/
theorem escapedAfter_escapeNameForDn (escaped : Bool) (name : QString) :
    Dn.escapedAfter escaped (escapeNameForDn name) = Dn.escapedAfter escaped name := by
  induction name generalizing escaped with
  | nil => rfl
  | cons c name ih =>
    by_cases hc : c = '?'
    · subst hc
      rw [escapeNameForDn_question]
      cases escaped with
      | true => exact ih false
      | false => exact ih false
    · rw [escapeNameForDn_cons hc]
      cases escaped with
      | true => exact ih false
      | false =>
        rw [Dn.escapedAfter, Dn.escapedAfter]
        split_ifs
        · rfl
        · exact ih _

/-- A renamed object has the same parent if its new RDN does not end before or after it. -/
def KeepsParent (rest : List Dn.Rdn) (newDn : QString) : Prop :=
  ∃ rdn, Dn.Closed rdn ∧ newDn = rdn ++ commaTail (parentText rest)

/-- The parent is kept by a new name in which nothing ends the RDN; or, if the old RDN has a
    comma, whose rest is put after the new name, by one that escapes this comma again. -/
theorem dnRename_keepsParent_iff (newName : QString) :
    KeepsParent rest (dnRename (Dn.text (first :: rest)) newName) ↔
      ',' ∉ first.text ∧ Dn.Closed newName ∨
      ',' ∈ first.text ∧ Dn.escapedAfter false newName = some true := by
  obtain ⟨cut⟩ := exists_cut first
  have hequals : Dn.Closed ['='] := rfl
  -- the new RDN
  have hrdn : KeepsParent rest (dnRename (Dn.text (first :: rest)) newName) ↔
      Dn.Closed (cut.type.text ++ '=' :: (escapeNameForDn newName ++ commaTail cut.tail)) := by
    rw [cut.dn_eq, dnRename_commaTail cut.equals_not_mem cut.comma_not_mem, ← commaTail_append,
      ← List.append_assoc, KeepsParent]
    have happend : cut.type.text ++ '=' :: escapeNameForDn newName ++ commaTail cut.tail =
        cut.type.text ++ '=' :: (escapeNameForDn newName ++ commaTail cut.tail) := by
      rw [List.append_assoc, List.cons_append]
    rw [happend]
    refine ⟨fun ⟨rdn, hclosed, h⟩ => ?_, fun h => ⟨_, h, rfl⟩⟩
    rwa [List.append_cancel_right h]
  have htype : ∀ t, Dn.escapedAfter false (cut.type.text ++ '=' :: t) =
      Dn.escapedAfter false t := fun t =>
    cut.type.closed_text.escapedAfter_append.trans (hequals.escapedAfter_append (t := t))
  have hclosed := first.closed_text
  rw [Dn.Closed, cut.text_eq, List.append_assoc, List.cons_append, htype,
    Dn.escapedAfter_append] at hclosed
  rw [hrdn, Dn.Closed, htype, Dn.escapedAfter_append, escapedAfter_escapeNameForDn, Dn.Closed]
  have hcomma : ',' ∈ first.text ↔ cut.tail ≠ none := by rw [Ne, cut.tail_eq_none, not_not]
  rw [hcomma, not_not]
  cases htail : cut.tail with
  | none =>
    have hend : ((Dn.escapedAfter false newName).bind fun escaped =>
        Dn.escapedAfter escaped (commaTail none)) = Dn.escapedAfter false newName :=
      Option.bind_fun_some _
    rw [hend]
    simp
  | some t =>
    have hcomma : ∀ escaped, Dn.escapedAfter escaped (commaTail (some t)) =
        if escaped then Dn.escapedAfter false t else none := by
      rintro (_ | _) <;> rfl
    simp only [hcomma, htail] at hclosed ⊢
    -- the comma was escaped, and the rest goes on to its end
    have ht : Dn.escapedAfter false t = some false := by
      rcases hvalue : Dn.escapedAfter false cut.value with _ | _ | _ <;> simp_all
    rcases Dn.escapedAfter false newName with _ | _ | _ <;> simp [ht]

/-- The RDN that `object_move` sends, with the DN of the new parent. -/
theorem objectMove_eq_iff (parent : List Dn.Rdn) :
    (∀ {σ : Type} (rename : σ → RenameRequest → σ × LdapResult) (s : σ),
      objectMove rename s (Dn.text (first :: rest)) (Dn.text parent) =
        sendRename rename s ⟨Dn.text (first :: rest), first.text, some (Dn.text parent)⟩) ↔
      ',' ∉ first.text := by
  rw [← dnGetRdn_eq_iff first rest]
  refine ⟨fun h => (RenameRequest.mk.inj (sendRename_inj h)).2.1, fun h σ rename s => ?_⟩
  rw [dnGetRdn] at h
  rw [objectMove, h]

/-- The RDN of the object's type with a new name. -/
def newRdn (first : Dn.Rdn) (newName : QString) : QString :=
  first.text.takeWhile (· ≠ '=') ++ '=' :: escapeNameForDn newName

theorem Cut.newRdn_eq (cut : Cut first) (newName : QString) :
    newRdn first newName = cut.type.text ++ '=' :: escapeNameForDn newName := by
  rw [newRdn, cut.text_eq, List.append_assoc, List.cons_append, List.takeWhile_append_of_pos]
  · simp
  · intro c hc
    exact decide_eq_true fun h => cut.equals_not_mem (h ▸ hc)

/-- The RDN that `object_rename` sends. -/
theorem objectRename_eq_iff (newName : QString) :
    (∀ {σ : Type} (rename : σ → RenameRequest → σ × LdapResult) (s : σ),
      objectRename rename s (Dn.text (first :: rest)) newName =
        sendRename rename s ⟨Dn.text (first :: rest), newRdn first newName, none⟩) ↔
      ',' ∉ newName := by
  obtain ⟨cut⟩ := exists_cut first
  have hcount : (escapeNameForDn newName).count ',' = newName.count ',' :=
    count_replaceText (by decide) (by decide) (by decide)
  obtain ⟨p, t, hp, hname, hnone⟩ := exists_commaTail (escapeNameForDn newName)
  rw [← List.count_eq_zero, hcount, List.count_eq_zero] at hnone
  have htype : ',' ∉ cut.type.text ++ '=' :: p := by
    have := cut.comma_not_mem
    simp_all
  -- the part of the new name up to its first comma is sent
  have hsent : ∀ {σ : Type} (rename : σ → RenameRequest → σ × LdapResult) (s : σ),
      objectRename rename s (Dn.text (first :: rest)) newName =
        sendRename rename s ⟨Dn.text (first :: rest), cut.type.text ++ '=' :: p, none⟩ := by
    intro σ rename s
    have hrdn : ((dnRename (Dn.text (first :: rest)) newName).splitOn ',').headD [] =
        cut.type.text ++ '=' :: p := by
      rw [cut.dn_eq, dnRename_commaTail cut.equals_not_mem cut.comma_not_mem, hname,
        ← List.cons_append, ← List.append_assoc, List.append_assoc _ (commaTail t),
        commaTail_append, splitOn_commaTail htype]
      rfl
    rw [objectRename, hrdn]
  simp only [hsent, cut.newRdn_eq]
  rw [← hnone]
  refine ⟨fun h => ?_, fun h => ?_⟩
  · have hsame := (RenameRequest.mk.inj (sendRename_inj h)).2.1
    rw [hname] at hsame
    exact commaTail_inj (List.append_right_eq_self.1
      (List.cons.inj (List.append_cancel_left hsame)).2.symm)
  · intro σ rename s
    rw [hname, h, commaTail, List.append_nil]

/-! ## The name as a string -/

/-- The bytes of a text in UTF-8. -/
def utf8 (text : QString) : List UInt8 := text.flatMap String.utf8EncodeChar

/-- The items of a value have no escapes but backslashes before question marks, which
    `dn_get_name` takes for escaped question marks. -/
def EscapesRight : List Dn.Item → Prop
  | [] => True
  | .plain _ _ :: items => EscapesRight items
  | .pair c _ :: items =>
    (c = '\\' ∧ (items.flatMap Dn.Item.text).head? = some '?') ∧ EscapesRight items
  | .hexpair _ _ _ _ :: _ => False

/-- The only value of an RDN is a string with such escapes. -/
def NameEscapesRight (first : Dn.Rdn) : Prop :=
  ∃ items, first.items? = some items ∧ EscapesRight items

theorem unescapeName_cons {c : Char} (h : c ≠ '\\') (text : QString) :
    unescapeName (c :: text) = c :: unescapeName text := by
  rw [unescapeName, replaceText_cons_of_not_match]
  · rfl
  · rw [List.cons_prefix_cons]
    exact fun hp => h hp.1.symm

/-- A backslash is taken away from a question mark. -/
theorem unescapeName_backslash (text : QString) : unescapeName ('\\' :: text) =
    if text.head? = some '?' then unescapeName text else '\\' :: unescapeName text := by
  cases text with
  | nil => rfl
  | cons c text =>
    by_cases hc : c = '?'
    · subst hc
      have hhead : ('?' :: text).head? = some '?' := rfl
      have hcons : unescapeName ('?' :: text) = '?' :: unescapeName text :=
        unescapeName_cons (by decide) text
      rw [if_pos hhead, hcons]
      exact replaceText_append (List.cons_ne_nil '\\' ['?'])
    · rw [if_neg (by simpa using hc), unescapeName, replaceText_cons_of_not_match]
      · rfl
      · rw [List.cons_prefix_cons, List.cons_prefix_cons]
        exact fun hp => hc hp.2.1.symm

theorem length_utf8_pos (c : Char) : 1 ≤ (String.utf8EncodeChar c).length := by
  rw [String.length_utf8EncodeChar]
  exact Char.utf8Size_pos c

theorem utf8_cons (c : Char) (text : QString) :
    utf8 (c :: text) = String.utf8EncodeChar c ++ utf8 text := rfl

theorem utf8_backslash (text : QString) : utf8 ('\\' :: text) = 92 :: utf8 text := rfl

/-- How the name continues after an item. -/
theorem unescapeName_item (item : Dn.Item) (text : QString) :
    unescapeName (item.text ++ text) =
      match item with
      | .plain c _ => c :: unescapeName text
      | .pair c _ =>
        if c = '\\' ∧ text.head? = some '?' then '\\' :: unescapeName text
        else '\\' :: c :: unescapeName text
      | .hexpair d d' _ _ => '\\' :: d :: d' :: unescapeName text := by
  cases item with
  | plain c h => exact unescapeName_cons h.ne.2 text
  | pair c h =>
    have hc : c ≠ '?' := by
      rintro rfl
      exact absurd h (by decide)
    have hhead : unescapeName ('\\' :: c :: text) = '\\' :: unescapeName (c :: text) := by
      rw [unescapeName_backslash, if_neg (by simpa using hc)]
    refine hhead.trans ?_
    dsimp only
    by_cases hback : c = '\\'
    · subst hback
      rw [unescapeName_backslash]
      split_ifs with h₁ h₂ h₂
      · rfl
      · exact absurd ⟨rfl, h₁⟩ h₂
      · exact absurd h₂.2 h₁
      · rfl
    · rw [unescapeName_cons hback, if_neg fun h => hback h.1]
  | hexpair d d' h h' =>
    have hhead : unescapeName ('\\' :: d :: d' :: text) = '\\' :: unescapeName (d :: d' :: text) := by
      rw [unescapeName_backslash, if_neg (by simpa using h.ne.2.2)]
    refine hhead.trans ?_
    rw [unescapeName_cons h.ne.2.1, unescapeName_cons h'.ne.2.1]

/-- The name is at least as long as the string, and only the same if its escapes are right. -/
theorem length_bytes_le (items : List Dn.Item) :
    (items.flatMap Dn.Item.bytes).length ≤
        (utf8 (unescapeName (items.flatMap Dn.Item.text))).length ∧
      ((items.flatMap Dn.Item.bytes).length =
        (utf8 (unescapeName (items.flatMap Dn.Item.text))).length → EscapesRight items) := by
  induction items with
  | nil => exact ⟨le_rfl, fun _ => trivial⟩
  | cons item items ih =>
    obtain ⟨hle, hright⟩ := ih
    rw [List.flatMap_cons, List.flatMap_cons, List.length_append, unescapeName_item]
    generalize items.flatMap Dn.Item.bytes = bytes at hle hright ⊢
    cases item with
    | plain c h =>
      dsimp only [Dn.Item.bytes]
      rw [utf8_cons, List.length_append, EscapesRight]
      exact ⟨Nat.add_le_add_left hle _, fun heq => hright (Nat.add_left_cancel heq)⟩
    | pair c h =>
      dsimp only [Dn.Item.bytes]
      split_ifs with hback
      · obtain ⟨rfl, hhead⟩ := hback
        have hlength : (String.utf8EncodeChar '\\').length = 1 := rfl
        rw [utf8_backslash, List.length_cons, EscapesRight, hlength]
        exact ⟨by omega, fun heq => ⟨⟨rfl, hhead⟩, hright (by omega)⟩⟩
      · rw [utf8_backslash, utf8_cons, List.length_cons, List.length_append]
        exact ⟨by omega, fun heq => by omega⟩
    | hexpair d d' h h' =>
      dsimp only [Dn.Item.bytes]
      rw [utf8_backslash, utf8_cons, utf8_cons, List.length_singleton]
      simp only [List.length_cons, List.length_append]
      have hd := length_utf8_pos d
      exact ⟨by omega, fun heq => by omega⟩

/-- The name is the string exactly if its escapes are right. -/
theorem utf8_unescapeName_iff (items : List Dn.Item) :
    utf8 (unescapeName (items.flatMap Dn.Item.text)) = items.flatMap Dn.Item.bytes ↔
      EscapesRight items := by
  refine ⟨fun h => (length_bytes_le items).2 (congrArg List.length h).symm, fun h => ?_⟩
  induction items with
  | nil => rfl
  | cons item items ih =>
    rw [List.flatMap_cons, List.flatMap_cons, unescapeName_item]
    cases item with
    | plain c _ =>
      rw [EscapesRight] at h
      rw [utf8_cons, ih h, Dn.Item.bytes]
    | pair c _ =>
      rw [EscapesRight] at h
      dsimp only
      rw [if_pos h.1, utf8_backslash, ih h.2, Dn.Item.bytes, h.1.1]
      rfl
    | hexpair d d' _ _ => exact absurd h (by rw [EscapesRight]; exact not_false)

/-- The bytes of a character: its number, or bytes that are not in ASCII. -/
theorem toNat_of_mem_utf8EncodeChar {c : Char} {b : UInt8} (h : b ∈ String.utf8EncodeChar c) :
    b.toNat = c.val.toNat ∨ 128 ≤ b.toNat := by
  rw [String.utf8EncodeChar] at h
  split_ifs at h with h₁ h₂ h₃
  · rw [List.mem_singleton.1 h, UInt8.toNat_ofNat', Nat.mod_eq_of_lt (by omega)]
    exact .inl rfl
  -- there are several bytes
  all_goals
    simp only [List.mem_cons, List.not_mem_nil, or_false] at h
    refine .inr ?_
  · rcases h with rfl | rfl <;> rw [UInt8.toNat_ofNat'] <;> omega
  · rcases h with rfl | rfl | rfl <;> rw [UInt8.toNat_ofNat'] <;> omega
  · rcases h with rfl | rfl | rfl | rfl <;> rw [UInt8.toNat_ofNat'] <;> omega

/-- The byte of a comma is that of no other character. -/
theorem eq_comma_of_mem_utf8EncodeChar {c : Char} (h : 44 ∈ String.utf8EncodeChar c) : c = ',' := by
  have hval : (44 : UInt8).toNat = c.val.toNat :=
    (toNat_of_mem_utf8EncodeChar h).resolve_right (by decide)
  exact Char.ext (UInt32.toNat_inj.1 hval.symm)

/-- A comma in a value is an escaped one. -/
theorem comma_mem_text {item : Dn.Item} (h : ',' ∈ item.text) : ∃ h, item = .pair ',' h := by
  cases item with
  | plain c hc => exact absurd (List.mem_singleton.1 h).symm hc.ne.1
  | pair c hc =>
    rcases List.mem_cons.1 h with heq | h
    · exact absurd heq (by decide)
    · obtain rfl := List.mem_singleton.1 h
      exact ⟨hc, rfl⟩
  | hexpair d d' hd hd' =>
    simp only [Dn.Item.text, List.mem_cons, List.not_mem_nil, or_false] at h
    rcases h with h | h | h
    · exact absurd h (by decide)
    · exact absurd h.symm hd.ne.1
    · exact absurd h.symm hd'.ne.1

theorem EscapesRight.comma_not_mem {items : List Dn.Item} (h : EscapesRight items) :
    ',' ∉ items.flatMap Dn.Item.text := by
  induction items with
  | nil => exact List.not_mem_nil
  | cons item items ih =>
    rw [List.flatMap_cons, List.mem_append, not_or]
    refine ⟨fun hcomma => ?_, ?_⟩
    · obtain ⟨hc, rfl⟩ := comma_mem_text hcomma
      rw [EscapesRight] at h
      exact absurd h.1.1 (by decide)
    · cases item with
      | plain c _ => rw [EscapesRight] at h; exact ih h
      | pair c _ => rw [EscapesRight] at h; exact ih h.2
      | hexpair d d' _ _ => rw [EscapesRight] at h; exact h.elim

/-- The name is that of the RDN exactly if its escapes are right. -/
theorem name?_eq_some_iff : first.name? = some (utf8 (dnGetName (Dn.text (first :: rest)))) ↔
    NameEscapesRight first := by
  rw [Dn.Rdn.name?, NameEscapesRight]
  cases hitems : first.items? with
  | none => exact iff_of_false nofun fun ⟨_, h, _⟩ => absurd h nofun
  | some items =>
    obtain ⟨type, htext⟩ := Dn.Rdn.text_of_items? hitems
    obtain ⟨p, t, hp, hvalue, hnone⟩ := exists_commaTail (items.flatMap Dn.Item.text)
    have htype : ',' ∉ type.text ++ '=' :: p := by
      have := type.not_mem_text (c := ',') (by decide) (by decide) (by decide)
      simp [this, hp]
    rw [text_eq_commaTail, htext, hvalue, ← List.cons_append, ← List.append_assoc,
      List.append_assoc _ (commaTail t), commaTail_append,
      dnGetName_commaTail (type.not_mem_text (by decide) (by decide) (by decide)) htype,
      Option.map_some, Option.some_inj, eq_comm]
    simp only [Option.some_inj, exists_eq_left']
    cases t with
    | none =>
      rw [commaTail, List.append_nil] at hvalue
      rw [← hvalue]
      exact utf8_unescapeName_iff items
    | some t =>
      have hcomma : ',' ∈ items.flatMap Dn.Item.text := by
        rw [hvalue]
        exact List.mem_append_right _ List.mem_cons_self
      refine iff_of_false (fun h => ?_) fun h => h.comma_not_mem hcomma
      -- the string has a comma, the name has none
      obtain ⟨item, hmem, hitem⟩ := List.mem_flatMap.1 hcomma
      obtain ⟨hc, rfl⟩ := comma_mem_text hitem
      have hbytes : 44 ∈ items.flatMap Dn.Item.bytes :=
        List.mem_flatMap.2 ⟨_, hmem, List.mem_singleton.2 rfl⟩
      rw [← h] at hbytes
      obtain ⟨c, hname, hbyte⟩ := List.mem_flatMap.1 hbytes
      rw [eq_comma_of_mem_utf8EncodeChar hbyte, ← List.count_pos_iff, unescapeName,
        count_replaceText (by decide) (by decide) (by decide), List.count_pos_iff] at hname
      exact hp hname

/-! ## The result -/

/-- For each of the functions, when it agrees with the RDNs that a DN is made of: most of them
    exactly when the first RDN has no comma, escaped as it is. -/
theorem surgery_iff (first : Dn.Rdn) (rest parent : List Dn.Rdn) (newName : QString) :
    let dn := Dn.text (first :: rest)
    (dnGetRdn dn = first.text ↔ ',' ∉ first.text) ∧
    (dnGetName dn = unescapeName first.valueText ↔ ',' ∉ first.text) ∧
    (first.name? = some (utf8 (dnGetName dn)) ↔ NameEscapesRight first) ∧
    (dnGetParent dn = Dn.text rest ↔ ParentCutsRight first rest) ∧
    (dnMove dn (Dn.text parent) = Dn.text (first :: parent) ↔ ParentCutsRight first parent) ∧
    (KeepsParent rest (dnRename dn newName) ↔
      ',' ∉ first.text ∧ Dn.Closed newName ∨
      ',' ∈ first.text ∧ Dn.escapedAfter false newName = some true) ∧
    ((∀ {σ : Type} (rename : σ → RenameRequest → σ × LdapResult) (s : σ),
      objectMove rename s dn (Dn.text parent) =
        sendRename rename s ⟨dn, first.text, some (Dn.text parent)⟩) ↔ ',' ∉ first.text) ∧
    ((∀ {σ : Type} (rename : σ → RenameRequest → σ × LdapResult) (s : σ),
      objectRename rename s dn newName =
        sendRename rename s ⟨dn, newRdn first newName, none⟩) ↔ ',' ∉ newName) :=
  ⟨dnGetRdn_eq_iff first rest, dnGetName_eq_iff first rest, name?_eq_some_iff first rest,
    dnGetParent_eq_iff first rest, dnMove_eq_iff first rest parent,
    dnRename_keepsParent_iff first rest newName, objectMove_eq_iff first rest parent,
    objectRename_eq_iff first rest newName⟩

/-- The DN of "Doe, John": its RDN and its parent are cut at the comma. -/
theorem not_surgery_comma : ∃ (first : Dn.Rdn) (rest : List Dn.Rdn),
    Dn.text (first :: rest) = "CN=Doe\\, John,DC=alt".toList ∧
    dnGetRdn (Dn.text (first :: rest)) ≠ first.text ∧
    dnGetParent (Dn.text (first :: rest)) ≠ Dn.text rest := by
  let doe : Dn.Value := .string [.plain 'D' (by decide), .plain 'o' (by decide),
    .plain 'e' (by decide), .pair ',' (by decide), .plain ' ' (by decide), .plain 'J' (by decide),
    .plain 'o' (by decide), .plain 'h' (by decide), .plain 'n' (by decide)]
    (by rintro c ⟨⟩; decide) (by rintro c ⟨⟩; decide)
  let alt : Dn.Value := .string [.plain 'a' (by decide), .plain 'l' (by decide),
    .plain 't' (by decide)] (by rintro c ⟨⟩; decide) (by rintro c ⟨⟩; decide)
  exact ⟨.single .cn doe, [.single .dc alt], by decide, by decide,
    by decide⟩

end Admc
