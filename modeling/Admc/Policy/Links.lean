import Admc.Interface.Attribute
import Admc.Lib.DistinguishedName
import Admc.Policy.RoundTrip

/-!
# Editing one link

An attribute holds links in the form "[LDAP://dn;option]". They are read, the
link to one policy is edited, and all of them are written back: by the widgets
for the links of an object, and when a policy is deleted, for each object that
has a link to it.

`keepsOthers_iff`: all the other links are written back as they were, up to the
letter case of their DNs, whatever the edit, exactly when each link survives
being read and written (`LinkBlock.Survives`) and links to the same policy have
the same option.
-/

namespace Admc

/-! ## Removing the links to a policy -/

/-- The last part of `AdInterface::gpo_delete`, over the objects with a link to the policy: the
    values that the attribute is replaced by are recorded, with the DNs of the objects. -/
def gpoUnlinkFrom {σ : Type} (tables : CaseTables) (rt : Runtime) (ldap : Ldap σ) (dn : String) :
    σ → List AdObject → σ × List (String × String)
  | s, [] => (s, [])
  | s, linkedObject :: objects =>
    let gplinkOldString := linkedObject.getString rt "gPLink"
    let gplink := (Gplink.ofString tables gplinkOldString.toList).remove tables dn.toList
    let value := String.ofList (gplink.toString tables)
    let (s, _) := attributeReplaceString ldap s linkedObject.dn "gPLink" value
    let (s, replaced) := gpoUnlinkFrom tables rt ldap dn s objects
    (s, (linkedObject.dn, value) :: replaced)

/-- The last part of `AdInterface::gpo_delete`: the policy is unlinked. -/
def gpoUnlink {σ : Type} (tables : CaseTables) (rt : Runtime) (ldap : Ldap σ)
    (domainDn dn : String) (s : σ) : σ × List (String × String) :=
  let filter := "(gPLink=*" ++ dn ++ "*)"
  let (s, results) := adSearch ldap s domainDn .all filter ["gPLink"] false
  gpoUnlinkFrom tables rt ldap dn s results.values

/-- Each object with a link is written back without it. -/
theorem mem_gpoUnlinkFrom {σ : Type} {tables : CaseTables} {rt : Runtime} {ldap : Ldap σ}
    {dn : String} {s : σ} {objects : List AdObject} {object : AdObject} (h : object ∈ objects) :
    (object.dn, String.ofList (((Gplink.ofString tables (object.getString rt "gPLink").toList).remove
      tables dn.toList).toString tables)) ∈ (gpoUnlinkFrom tables rt ldap dn s objects).2 := by
  induction objects generalizing s with
  | nil => exact absurd h List.not_mem_nil
  | cons object' objects ih =>
    rcases List.mem_cons.1 h with rfl | h
    · exact List.mem_cons_self
    · exact List.mem_cons_of_mem _ (ih h)

/-! ## Edits of one link -/

/-- The functions that edit the link to one policy. -/
inductive GpoEdit
  | add
  | remove
  | moveUp
  | moveDown
  | move (toOrder : ℤ)
  | setOption (option : GplinkOption) (value : Bool)

/-- The effect of an edit of the link to a policy: it is moved from its order. -/
def Gplink.editGpo (tables : CaseTables) (gplink : Gplink) (gpo : QString) : GpoEdit → Gplink
  | .add => gplink.add tables gpo
  | .remove => gplink.remove tables gpo
  | .moveUp => gplink.moveUp tables gpo
  | .moveDown => gplink.moveDown tables gpo
  | .move toOrder => gplink.move (gplink.getGpoOrder tables gpo) toOrder
  | .setOption option value => gplink.setOption tables gpo option value

/-- One link of an attribute: the prefix in some letter case, a DN, and a decimal number. -/
structure LinkBlock where
  ldap : QString
  dn : List Dn.Rdn
  option : QString
  ldap_lower : ldap.map Char.toLower = "ldap://".toList
  option_digits : option ≠ [] ∧ ∀ c ∈ option, c.isDigit = true

namespace LinkBlock

/-- The text of the DN. -/
def dnText (block : LinkBlock) : QString := Dn.text block.dn

/-- The number that stands for the options. -/
def optionValue (block : LinkBlock) : ℕ := Nat.ofDigitChars 10 block.option 0

/-- The text of a link, between the brackets. -/
def body (block : LinkBlock) : QString := block.ldap ++ block.dnText ++ ';' :: block.option

end LinkBlock

/-- The value of an attribute. -/
def gplinkText (blocks : List LinkBlock) : QString :=
  (blocks.map fun block => '[' :: (block.body ++ [']'])).flatten

/-- The links that `Gplink::to_string` writes: their DNs and options. -/
def Gplink.written (tables : CaseTables) (gplink : Gplink) : List (QString × ℤ) :=
  gplink.gpoList.reverse.map fun gpo =>
    (gpoDnToGplinkCase tables (gpo.splitOn ','), (gplink.options.value gpo 0).toInt)

theorem Gplink.toString_eq_written {tables : CaseTables} {gplink : Gplink} :
    gplink.toString tables = ((gplink.written tables).map fun link =>
      '[' :: ldapPrefix ++ link.1 ++ ';' :: number link.2 ++ [']']).flatten := by
  rw [toString, written, List.map_map]
  rfl

/-- The links to other policies than one, with their DNs in lower case. -/
def others (tables : CaseTables) (blocks : List LinkBlock) (gpo : QString) : List (QString × ℤ) :=
  (blocks.filter fun block => tables.lower block.dnText ≠ tables.lower gpo).map fun block =>
    (tables.lower block.dnText, (block.optionValue : ℤ))

/-- The links to other policies are among the written ones, in the same order. -/
def KeepsOthers (tables : CaseTables) (blocks : List LinkBlock) (gpo : QString)
    (gplink : Gplink) : Prop :=
  (others tables blocks gpo).Sublist
    ((gplink.written tables).map fun link => (tables.lower link.1, link.2))

/-- A link that can be read and written: its prefix has the expected letter case, its DN has
    no brackets, semicolons and prefixes, and either one "=" in each of its components, with
    a value in the first one that is the same in lower case after it was in upper case, or a
    single component without one "="; and its option is not too large. -/
structure LinkBlock.Survives (tables : CaseTables) (block : LinkBlock) : Prop where
  ldap : block.ldap = ldapPrefix
  brackets : '[' ∉ block.dnText ∧ ']' ∉ block.dnText ∧ ';' ∉ block.dnText
  noPrefix : ¬ldapPrefix <:+: block.dnText
  rdns : (∀ rdn ∈ block.dnText.splitOn ',', rdn.count '=' = 1) ∧
      KeepsFirstValue tables (tables.lower block.dnText) ∨
    ',' ∉ block.dnText ∧ block.dnText.count '=' ≠ 1
  option : block.optionValue < 2 ^ 31

/-- Links to the same policy have the same option. -/
def SameOptions (tables : CaseTables) (blocks : List LinkBlock) : Prop :=
  ∀ block ∈ blocks, ∀ block' ∈ blocks,
    tables.lower block.dnText = tables.lower block'.dnText → block.optionValue = block'.optionValue

variable {tables : CaseTables} {gplink : Gplink} {gpo : QString} {blocks : List LinkBlock}

/-! ## What an edit leaves alone -/

/-- Moving an element leaves the order of the others. -/
theorem filter_moveItem_indexOf {l : List QString} {i : ℤ} {j : ℕ} (h : 0 ≤ i)
    (hi : i = indexOf l gpo) :
    (l.moveItem i.toNat j).filter (· ≠ gpo) = l.filter (· ≠ gpo) := by
  subst hi
  refine List.filter_moveItem fun a ha => ?_
  rw [getElem?_indexOf h ha]
  exact decide_eq_false (not_not.2 rfl)

/-- An edit of the link to a policy leaves the order and the options of the others. -/
theorem Gplink.editGpo_frame (hkeys : ∀ gpo, gpo ∈ gplink.options.keys ↔ gpo ∈ gplink.gpoList)
    (gpo : QString) (e : GpoEdit) :
    (gplink.editGpo tables gpo e).gpoList.filter (· ≠ tables.lower gpo) =
        gplink.gpoList.filter (· ≠ tables.lower gpo) ∧
      ∀ gpo', gpo' ≠ tables.lower gpo →
        (gplink.editGpo tables gpo e).options.value gpo' 0 = gplink.options.value gpo' 0 := by
  cases e with
  | add =>
    rw [editGpo, add]
    split_ifs
    · exact ⟨rfl, fun _ _ => rfl⟩
    · refine ⟨?_, fun gpo' hne => ?_⟩
      · rw [List.filter_append, List.filter_cons_of_neg (by simp)]
        exact List.append_nil _
      · rw [QHash.value_insert, if_neg hne]
  | remove =>
    rw [editGpo, remove]
    split_ifs
    · refine ⟨?_, fun gpo' hne => QHash.value_remove hne⟩
      rw [List.filter_filter]
      simp
    · exact ⟨rfl, fun _ _ => rfl⟩
  | moveUp =>
    refine ⟨?_, fun gpo' _ => by rw [editGpo, moveUp_options]⟩
    rw [editGpo, moveUp]
    dsimp only
    split_ifs with hcontains hpos
    · exact filter_moveItem_indexOf (le_of_lt hpos) rfl
    all_goals rfl
  | moveDown =>
    refine ⟨?_, fun gpo' _ => by rw [editGpo, moveDown_options]⟩
    rw [editGpo, moveDown]
    dsimp only
    split_ifs with hcontains hlt
    · rw [contains_lower, hkeys] at hcontains
      exact filter_moveItem_indexOf (indexOf_nonneg hcontains) rfl
    all_goals rfl
  | move toOrder =>
    refine ⟨?_, fun gpo' _ => by rw [editGpo, move_options]⟩
    rw [editGpo, move]
    split_ifs with horders
    · rfl
    · rw [getGpoOrder] at horders ⊢
      exact filter_moveItem_indexOf (by omega) (by omega)
  | setOption option value =>
    rw [editGpo, setOption]
    split_ifs
    · exact ⟨rfl, fun gpo' hne => by rw [QHash.value_insert, if_neg hne]⟩
    · exact ⟨rfl, fun _ _ => rfl⟩

/-! ## Links that survive -/

namespace LinkBlock

variable {block : LinkBlock}

theorem digits_option (block : LinkBlock) : digits block.option = some block.optionValue :=
  if_pos ⟨block.option_digits.1, List.all_eq_true.2 block.option_digits.2⟩

theorem not_mem_option (block : LinkBlock) {c : Char} (h : c.isDigit = false) :
    c ∉ block.option := fun hc => absurd (h.symm.trans (block.option_digits.2 c hc)) nofun

theorem not_mem_ldap (block : LinkBlock) {c : Char} (h : c.toLower ∉ "ldap://".toList) :
    c ∉ block.ldap := fun hc => h (block.ldap_lower ▸ List.mem_map_of_mem hc)

theorem ldap_ascii (block : LinkBlock) : ∀ c ∈ block.ldap, c.val < 128 := by
  intro c hc
  have hmem : c.toLower ∈ "ldap://".toList := block.ldap_lower ▸ List.mem_map_of_mem hc
  have hascii : ∀ d ∈ "ldap://".toList, d.val < 128 := forall_mem_of_all (by decide)
  exact CaseTables.ascii_of_toLower (hascii _ hmem)

/-- The policy that a link names, when it is read. -/
theorem namedGpo_body (tables : CaseTables) (h : ';' ∉ block.dnText) :
    Gplink.namedGpo tables block.body = some (ldapToGpo tables (block.ldap ++ block.dnText)) ∧
      Gplink.partOption block.body = BitVec.ofInt 32 (toInt block.option) := by
  have htext : ';' ∉ block.ldap ++ block.dnText := fun hmem =>
    (List.mem_append.1 hmem).elim (block.not_mem_ldap (by decide)) h
  have hoption : ';' ∉ block.option := block.not_mem_option (by decide)
  exact ⟨Gplink.namedGpo_append htext hoption, Gplink.partOption_append htext hoption⟩

theorem not_mem_body {c : Char} (h : c ∉ block.dnText) (hdigit : c.isDigit = false)
    (hldap : c.toLower ∉ "ldap://".toList) (hsemi : c ≠ ';') : c ∉ block.body := by
  rw [body, List.mem_append, List.mem_append, List.mem_cons]
  rintro ((hc | hc) | hc | hc)
  exacts [block.not_mem_ldap hldap hc, h hc, hsemi hc, block.not_mem_option hdigit hc]

namespace Survives

theorem ldapToGpo_eq (h : block.Survives tables) :
    ldapToGpo tables (block.ldap ++ block.dnText) = tables.lower block.dnText := by
  rw [ldapToGpo, h.ldap, removeText, replaceText_append (by decide), List.nil_append,
    replaceText_of_not_infix h.noPrefix]

/-- The DN is written as it was read. -/
theorem lower_case (h : block.Survives tables) :
    tables.lower (gpoDnToGplinkCase tables ((tables.lower block.dnText).splitOn ',')) =
      tables.lower block.dnText := by
  rcases h.rdns with ⟨hrdns, hvalue⟩ | ⟨hcomma, hequals⟩
  · rw [lower_gpoDnToGplinkCase _ hvalue, CaseTables.lower_lower]
    rw [CaseTables.splitOn_lower (by decide) (by decide)]
    intro rdn hrdn
    obtain ⟨rdn, hmem, rfl⟩ := List.mem_map.1 hrdn
    rw [CaseTables.count_lower (by decide) (by decide), hrdns rdn hmem]
  · have hsplit : (tables.lower block.dnText).splitOn ',' = [tables.lower block.dnText] :=
      List.splitOn_eq_singleton (by rwa [CaseTables.mem_lower (by decide) (by decide)])
    have hwf : ¬∀ rdn ∈ [tables.lower block.dnText], rdn.count '=' = 1 := by
      rw [List.forall_mem_singleton, CaseTables.count_lower (by decide) (by decide)]
      exact hequals
    obtain ⟨rdn, hmem, -, heq⟩ := gpoDnToGplinkCase_of_not_wf tables hwf
    rw [hsplit, heq, List.mem_singleton.1 hmem, CaseTables.lower_lower]

theorem toInt_option (h : block.Survives tables) :
    (BitVec.ofInt 32 (toInt block.option)).toInt = block.optionValue := by
  have hvalue := h.option
  rw [toInt, toInteger_of_digits block.digits_option, if_pos (by norm_cast),
    BitVec.toInt_ofInt_eq_self (by decide) (by omega) (by norm_cast)]

end Survives

end LinkBlock

/-- The parts of a text of links without brackets in their DNs. -/
theorem parts_gplinkText (tables : CaseTables)
    (h : ∀ block ∈ blocks, '[' ∉ block.dnText ∧ ']' ∉ block.dnText ∧ ';' ∉ block.dnText) :
    Gplink.parts (gplinkText blocks) = blocks.map LinkBlock.body ++ [[]] ∧
      (Gplink.parts (gplinkText blocks)).filterMap (Gplink.namedGpo tables) =
        blocks.map fun block => ldapToGpo tables (block.ldap ++ block.dnText) := by
  have hparts : Gplink.parts (gplinkText blocks) = blocks.map LinkBlock.body ++ [[]] := by
    have htext : gplinkText blocks =
        ((blocks.map LinkBlock.body).map fun body => '[' :: (body ++ [']'])).flatten := by
      rw [gplinkText, List.map_map]
      rfl
    rw [htext, Gplink.parts_flatten]
    intro body hbody
    obtain ⟨block, hblock, rfl⟩ := List.mem_map.1 hbody
    obtain ⟨hopen, hclose, -⟩ := h block hblock
    exact ⟨LinkBlock.not_mem_body hopen (by decide) (by decide) (by decide),
      LinkBlock.not_mem_body hclose (by decide) (by decide) (by decide)⟩
  refine ⟨hparts, ?_⟩
  have hnil : [[]].filterMap (Gplink.namedGpo tables) = [] := rfl
  rw [hparts, List.filterMap_append, hnil, List.append_nil, List.filterMap_map,
    ← List.filterMap_eq_map]
  refine List.filterMap_congr fun block hblock => ?_
  exact (LinkBlock.namedGpo_body tables (h block hblock).2.2).1

/-- What is read from links that survive. -/
theorem ofString_gplinkText (hblocks : ∀ block ∈ blocks, block.Survives tables)
    (hsame : SameOptions tables blocks) :
    (Gplink.ofString tables (gplinkText blocks)).gpoList.reverse =
        blocks.map (fun block => tables.lower block.dnText) ∧
      ∀ block ∈ blocks, ((Gplink.ofString tables (gplinkText blocks)).options.value
        (tables.lower block.dnText) 0).toInt = block.optionValue := by
  obtain ⟨hparts, hnamed⟩ := parts_gplinkText tables fun block h => (hblocks block h).brackets
  have hgpo : blocks.map (fun block => ldapToGpo tables (block.ldap ++ block.dnText)) =
      blocks.map fun block => tables.lower block.dnText :=
    List.map_congr_left fun block h => (hblocks block h).ldapToGpo_eq
  rw [hgpo] at hnamed
  refine ⟨by rw [Gplink.ofString_gpoList, hnamed, List.reverse_reverse], fun block hblock => ?_⟩
  rw [← (hblocks block hblock).toInt_option, Gplink.ofString_eq]
  congr 1
  refine Gplink.foldl_readPart_value (fun part hpart hname => ?_) (.inl ?_)
  · rw [hparts, List.mem_append, List.mem_singleton] at hpart
    rcases hpart with hpart | rfl
    · obtain ⟨block', hblock', rfl⟩ := List.mem_map.1 hpart
      obtain ⟨hname', hoption⟩ := LinkBlock.namedGpo_body tables
        (hblocks block' hblock').brackets.2.2
      rw [hname', (hblocks block' hblock').ldapToGpo_eq, Option.some_inj] at hname
      -- the options are the same number, if not the same text
      rw [hoption]
      refine BitVec.eq_of_toInt_eq ?_
      rw [(hblocks block' hblock').toInt_option, (hblocks block hblock).toInt_option,
        hsame block' hblock' block hblock hname]
    · exact absurd hname nofun
  · rw [hnamed]
    exact List.mem_map_of_mem hblock

theorem mem_keys_ofString (tables : CaseTables) (gplinkString gpo : QString) :
    gpo ∈ (Gplink.ofString tables gplinkString).options.keys ↔
      gpo ∈ (Gplink.ofString tables gplinkString).gpoList := by
  rw [Gplink.ofString_gpoList, List.mem_reverse, Gplink.ofString_eq,
    Gplink.mem_keys_foldl_readPart]
  exact or_iff_left List.not_mem_nil

/-- If the links survive and agree, an edit keeps the others. -/
theorem keepsOthers_of_survives (hblocks : ∀ block ∈ blocks, block.Survives tables)
    (hsame : SameOptions tables blocks) (gpo : QString) (e : GpoEdit) :
    KeepsOthers tables blocks gpo
      ((Gplink.ofString tables (gplinkText blocks)).editGpo tables gpo e) := by
  obtain ⟨hlist, hoptions⟩ := ofString_gplinkText hblocks hsame
  have hkeys := mem_keys_ofString tables (gplinkText blocks)
  generalize Gplink.ofString tables (gplinkText blocks) = read at hlist hoptions hkeys ⊢
  obtain ⟨hfilter, hvalue⟩ := Gplink.editGpo_frame hkeys gpo e
  generalize read.editGpo tables gpo e = gplink at hfilter hvalue ⊢
  -- the other policies of the list, in the order in which they are written
  have hgpos : gplink.gpoList.reverse.filter (· ≠ tables.lower gpo) =
      (blocks.filter fun block => tables.lower block.dnText ≠ tables.lower gpo).map
        fun block => tables.lower block.dnText := by
    rw [List.filter_reverse, hfilter, ← List.filter_reverse, hlist, List.filter_map]
    rfl
  have hothers : others tables blocks gpo =
      ((gplink.gpoList.reverse.filter (· ≠ tables.lower gpo)).map fun gpo =>
        (gpoDnToGplinkCase tables (gpo.splitOn ','), (gplink.options.value gpo 0).toInt)).map
          fun link => (tables.lower link.1, link.2) := by
    rw [hgpos, List.map_map, List.map_map]
    refine List.map_congr_left fun block hblock => ?_
    obtain ⟨hmem, hne⟩ := List.mem_filter.1 hblock
    rw [Function.comp_apply, Function.comp_apply, (hblocks block hmem).lower_case,
      hvalue _ (of_decide_eq_true hne), hoptions block hmem]
  rw [KeepsOthers, hothers, Gplink.written]
  exact (List.filter_sublist.map _).map _

/-! ## Links that do not survive -/

theorem exists_fresh (tables : CaseTables) (l : List QString) :
    ∃ gpo : QString, tables.lower gpo = gpo ∧ gpo ∉ l := by
  refine ⟨List.replicate ((l.map List.length).max?.getD 0 + 1) 'a', ?_, fun h => ?_⟩
  · rw [CaseTables.lower_of_ascii fun c hc => by rw [List.eq_of_mem_replicate hc]; decide,
      List.map_replicate]
    rfl
  · have hlength := List.mem_map_of_mem (f := List.length) h
    have hle := List.le_max?_getD_of_mem (k := 0) hlength
    rw [List.length_replicate] at hle
    omega

/-- What is read has none of the characters that take a text apart. -/
theorem brackets_of_mem_gpoList {gplinkString : QString}
    (h : gpo ∈ (Gplink.ofString tables gplinkString).gpoList) :
    '[' ∉ gpo ∧ ']' ∉ gpo ∧ ';' ∉ gpo := by
  rw [Gplink.ofString_gpoList, List.mem_reverse, List.mem_filterMap] at h
  obtain ⟨part, hpart, hnamed⟩ := h
  rw [Gplink.parts, replaceText_singleton_nil] at hpart
  rw [Gplink.namedGpo] at hnamed
  split at hnamed
  · rename_i text option hsplit
    have htext : text ∈ part.splitOn ';' := hsplit ▸ List.mem_cons_self
    have hgpo : ∀ c, c.val < 128 → c.isAlpha = false → c ∉ text → c ∉ gpo := by
      intro c hascii hletter hc hmem
      rw [← Option.some.inj hnamed, ldapToGpo, CaseTables.mem_lower hascii hletter,
        ← List.count_pos_iff] at hmem
      have hle : (removeText ldapPrefix text).count c ≤ text.count c := count_removeText_le c
      rw [List.count_eq_zero_of_not_mem hc] at hle
      omega
    have hpart' : ∀ c, c ∉ part → c ∉ text := by
      intro c hc hmem
      have hle := Path.count_le_of_mem_splitOn htext c
      rw [List.count_eq_zero_of_not_mem hc, Nat.le_zero, List.count_eq_zero] at hle
      exact hle hmem
    refine ⟨hgpo _ (by decide) (by decide) (hpart' _ fun hmem => ?_),
      hgpo _ (by decide) (by decide) (hpart' _ (Path.not_mem_of_mem_splitOn hpart)),
      hgpo _ (by decide) (by decide) (Path.not_mem_of_mem_splitOn htext)⟩
    have hopen : '[' ∉ gplinkString.filter (· ≠ '[') := fun h =>
      absurd rfl (of_decide_eq_true (List.mem_filter.1 h).2)
    have hle := Path.count_le_of_mem_splitOn hpart '['
    rw [List.count_eq_zero_of_not_mem hopen, Nat.le_zero, List.count_eq_zero] at hle
    exact hle hmem
  · cases hnamed

/-- A text that starts like another one, up to a character that this one has not, starts with
    it. -/
theorem prefix_of_prefix_append_cons {p s t : QString} {c : Char} (hc : c ∉ p)
    (h : p <+: s ++ c :: t) : p <+: s := by
  obtain ⟨u, hu⟩ := h
  rcases List.append_eq_append_iff.1 hu with ⟨v, rfl, -⟩ | ⟨v, rfl, hv⟩
  · exact List.prefix_append p v
  · cases v with
    | nil => rw [List.append_nil]
    | cons d v =>
      rw [(List.cons.inj hv).1] at hc
      exact absurd (List.mem_append_right _ List.mem_cons_self) hc

/-- A DN does not start like the prefix. -/
theorem LinkBlock.not_prefix_dnText (block : LinkBlock) (tables : CaseTables) :
    ¬"ldap://".toList <+: tables.lower block.dnText := by
  intro h
  rcases hdn : block.dn with _ | ⟨first, rest⟩
  · rw [dnText, hdn, Dn.text_nil, CaseTables.lower_nil] at h
    exact absurd (List.prefix_nil.1 h) (by decide)
  · obtain ⟨type, value, hfirst⟩ := first.exists_text
    obtain ⟨value', hvalue'⟩ : ∃ value', block.dnText = type.text ++ '=' :: value' := by
      rw [dnText, hdn, Dn.text_cons]
      split_ifs
      · exact ⟨value, hfirst⟩
      · exact ⟨value ++ ',' :: Dn.text rest, by rw [hfirst, List.append_assoc, List.cons_append]⟩
    have hequals : tables.lower ['='] = ['='] := by
      rw [CaseTables.lower_of_ascii (forall_mem_of_all (by decide))]
      decide
    rw [hvalue', CaseTables.lower_append, ← List.singleton_append, CaseTables.lower_append, hequals,
      List.singleton_append] at h
    have hcolon := (prefix_of_prefix_append_cons (by decide) h).subset
      (show ':' ∈ "ldap://".toList by decide)
    rw [CaseTables.mem_lower (by decide) (by decide)] at hcolon
    exact type.not_mem_text (by decide) (by decide) (by decide) hcolon

/-- A prefix in another letter case is not removed. -/
theorem LinkBlock.removeText_ldapPrefix_of_ne {block : LinkBlock} (hne : block.ldap ≠ ldapPrefix) :
    removeText ldapPrefix (block.ldap ++ block.dnText) =
      block.ldap ++ removeText ldapPrefix block.dnText := by
  have hmap := block.ldap_lower
  obtain ⟨c, cs, hldap⟩ : ∃ c cs, block.ldap = c :: cs := by
    refine List.exists_cons_of_ne_nil fun hnil => ?_
    rw [hnil] at hmap
    exact absurd hmap (by decide)
  have htail : 'L' ∉ cs := by
    intro hmem
    have hldap' : "ldap://".toList = 'l' :: "dap://".toList := by decide
    rw [hldap, List.map_cons, hldap'] at hmap
    have hmem' : 'l' ∈ "dap://".toList := (List.cons.inj hmap).2 ▸ List.mem_map_of_mem hmem
    exact absurd hmem' (by decide)
  have hhead : ¬ldapPrefix <+: block.ldap ++ block.dnText := by
    intro hp
    have hlength : block.ldap.length = ldapPrefix.length := by
      have := congrArg List.length hmap
      rwa [List.length_map] at this
    refine hne (List.IsPrefix.eq_of_length ?_ hlength.symm).symm
    exact List.prefix_of_prefix_length_le hp (List.prefix_append _ _) hlength.symm.le
  rw [hldap, List.cons_append] at hhead ⊢
  rw [removeText, replaceText_cons_of_not_match hhead]
  exact congrArg (c :: ·) (replaceText_append_of_not_mem htail)

/-- It is in the type of the first attribute then, which is written as it is. -/
theorem ldap_prefix_gpoDnToGplinkCase {rest : QString}
    (hwf : ∀ rdn ∈ ("ldap://".toList ++ rest).splitOn ',', rdn.count '=' = 1) :
    "ldap://".toList <+: gpoDnToGplinkCase tables (("ldap://".toList ++ rest).splitOn ',') := by
  obtain ⟨first, rdns, hsplit⟩ :=
    List.exists_cons_of_ne_nil (List.splitOn_ne_nil ',' ("ldap://".toList ++ rest))
  have hfirst : "ldap://".toList <+: first := by
    obtain ⟨-, ⟨-, hfirst⟩ | ⟨t, hfirst, -⟩⟩ := Path.exists_of_splitOn_eq_cons hsplit
    · exact hfirst ▸ List.prefix_append _ _
    · exact prefix_of_prefix_append_cons (by decide) (hfirst ▸ List.prefix_append _ rest)
  obtain ⟨attr, value, -, -, hrdn, hsplit'⟩ :=
    Path.exists_of_count_eq_one (hwf first (hsplit ▸ List.mem_cons_self))
  have hattr : "ldap://".toList <+: attr :=
    prefix_of_prefix_append_cons (by decide) (hrdn ▸ hfirst)
  have hdc : attr ≠ "dc".toList := fun heq => by
    rw [heq] at hattr
    exact absurd hattr (by decide)
  have hcase :
      "ldap://".toList <+: rdnCase tables (("ldap://".toList ++ rest).splitOn ',') first := by
    rw [rdnCase, hsplit']
    dsimp only
    rw [if_neg hdc, Path.intercalate_pair]
    exact hattr.trans (List.prefix_append _ _)
  rw [gpoDnToGplinkCase_of_wf hwf]
  rw [hsplit] at hcase ⊢
  cases rdns with
  | nil => rwa [List.map_singleton, List.intercalate_singleton]
  | cons second rdns =>
    rw [List.map_cons, List.map_cons, Path.intercalate_cons_cons]
    exact hcase.trans (List.prefix_append _ _)

/-- A link that is read with a prefix in another letter case is read as a policy whose DN
    starts with the prefix, and is written so. -/
theorem LinkBlock.ldap_eq_of_lower_case {block : LinkBlock}
    (h : tables.lower block.dnText = tables.lower (gpoDnToGplinkCase tables
      ((ldapToGpo tables (block.ldap ++ block.dnText)).splitOn ','))) :
    block.ldap = ldapPrefix := by
  by_contra hne
  have hlower : tables.lower block.ldap = "ldap://".toList := by
    rw [CaseTables.lower_of_ascii block.ldap_ascii, block.ldap_lower]
  have hldap : tables.lower "ldap://".toList = "ldap://".toList := by
    rw [CaseTables.lower_of_ascii (forall_mem_of_all (by decide))]
    decide
  rw [ldapToGpo, LinkBlock.removeText_ldapPrefix_of_ne hne, CaseTables.lower_append, hlower] at h
  generalize hrest : tables.lower (removeText ldapPrefix block.dnText) = rest at h
  refine block.not_prefix_dnText tables ?_
  rw [h]
  have hlower_prefix : ∀ {text : QString}, "ldap://".toList <+: text →
      "ldap://".toList <+: tables.lower text := by
    rintro _ ⟨t, rfl⟩
    exact ⟨tables.lower t, by rw [CaseTables.lower_append, hldap]⟩
  refine hlower_prefix ?_
  by_cases hwf : ∀ rdn ∈ ("ldap://".toList ++ rest).splitOn ',', rdn.count '=' = 1
  · exact ldap_prefix_gpoDnToGplinkCase hwf
  · -- a component that is written alone is the only one
    obtain ⟨rdn, hmem, -, heq⟩ := gpoDnToGplinkCase_of_not_wf tables hwf
    have hcomma : ',' ∉ "ldap://".toList ++ rest := by
      have hdn : ',' ∉ block.dnText := by
        rw [← @CaseTables.mem_lower tables _ _ (by decide) (by decide), h, heq,
          CaseTables.mem_lower (by decide) (by decide)]
        exact Path.not_mem_of_mem_splitOn hmem
      rw [List.mem_append, not_or, ← hrest, CaseTables.mem_lower (by decide) (by decide)]
      refine ⟨by decide, fun hmem => hdn ?_⟩
      have hle : (removeText ldapPrefix block.dnText).count ',' ≤ block.dnText.count ',' :=
        count_removeText_le ','
      rw [← List.count_pos_iff] at hmem ⊢
      omega
    rw [heq]
    rw [List.splitOn_eq_singleton hcomma] at hmem
    rw [List.mem_singleton.1 hmem]
    exact List.prefix_append _ _

/-- If a DN is written as it was read, the value of its first component is. -/
theorem keepsFirstValue_of_lower_case (hwf : ∀ rdn ∈ gpo.splitOn ',', rdn.count '=' = 1)
    (h : tables.lower (gpoDnToGplinkCase tables (gpo.splitOn ',')) = gpo) :
    KeepsFirstValue tables gpo := by
  intro attr value rest hattr hsplit
  have hcomma : ∀ rdn ∈ (gpo.splitOn ',').map (rdnCase tables (gpo.splitOn ',')), ',' ∉ rdn := by
    intro rdn hrdn
    obtain ⟨rdn, hmem, rfl⟩ := List.mem_map.1 hrdn
    rw [← List.count_eq_zero, count_rdnCase (by decide) (by decide), List.count_eq_zero]
    exact Path.not_mem_of_mem_splitOn hmem
  have hcomponents := congrArg (List.splitOn ',') h
  rw [gpoDnToGplinkCase_of_wf hwf, CaseTables.splitOn_lower (by decide) (by decide),
    List.splitOn_intercalate _ hcomma (by simp [List.splitOn_ne_nil]), List.map_map, hsplit,
    List.map_cons] at hcomponents
  have hfirst := (List.cons.inj hcomponents).1
  have hcount := hwf _ (hsplit ▸ List.mem_cons_self)
  rw [List.count_append, List.count_cons_self, List.count_eq_zero_of_not_mem hattr] at hcount
  have hvalue : '=' ∉ value := List.count_eq_zero.1 (by omega)
  have hindex : indexOf ((attr ++ '=' :: value) :: rest) (attr ++ '=' :: value) = 0 :=
    indexOf_cons_self rest _
  have hequals : ∀ text, '=' ∉ tables.lower text ↔ '=' ∉ text := fun text =>
    not_congr (CaseTables.mem_lower (by decide) (by decide))
  have hupper : ∀ text, '=' ∉ text → '=' ∉ tables.upper text := by
    intro text htext
    rw [← List.count_eq_zero, CaseTables.count_upper (by decide) (by decide), List.count_eq_zero]
    exact htext
  have hattr' : '=' ∉ tables.lower (if attr = "dc".toList then tables.upper attr else attr) := by
    rw [hequals]
    split_ifs
    exacts [hupper attr hattr, hattr]
  have hlower : tables.lower ['='] = ['='] := by
    rw [CaseTables.lower_of_ascii (forall_mem_of_all (by decide))]
    decide
  rw [Function.comp_apply, rdnCase, List.splitOn_append_cons_self_of_not_mem hattr,
    List.splitOn_eq_singleton hvalue] at hfirst
  dsimp only at hfirst
  rw [if_pos hindex, Path.intercalate_pair, CaseTables.lower_append, ← List.singleton_append,
    CaseTables.lower_append, hlower, List.singleton_append] at hfirst
  have hsplit' := congrArg (List.splitOn '=') hfirst
  rw [List.splitOn_append_cons_self_of_not_mem hattr', List.splitOn_eq_singleton
    ((hequals _).2 (hupper value hvalue)), List.splitOn_append_cons_self_of_not_mem hattr,
    List.splitOn_eq_singleton hvalue] at hsplit'
  have hkept : tables.lower (tables.upper value) = value :=
    (List.cons.inj (List.cons.inj hsplit').2).1
  conv_rhs => rw [← hkept, CaseTables.lower_lower]

/-- What survives of a link that is read and written as it was. -/
theorem LinkBlock.survives_of_written {block : LinkBlock}
    (hbrackets : '[' ∉ block.dnText ∧ ']' ∉ block.dnText ∧ ';' ∉ block.dnText)
    (hlower : tables.lower block.dnText = tables.lower (gpoDnToGplinkCase tables
      ((ldapToGpo tables (block.ldap ++ block.dnText)).splitOn ',')))
    (hoption : block.optionValue < 2 ^ 31) :
    block.Survives tables ∧
      ldapToGpo tables (block.ldap ++ block.dnText) = tables.lower block.dnText := by
  have hldap := ldap_eq_of_lower_case hlower
  have hremove : removeText ldapPrefix (block.ldap ++ block.dnText) =
      removeText ldapPrefix block.dnText := by
    rw [hldap, removeText, replaceText_append (by decide)]
    rfl
  have hno : ¬ldapPrefix <:+: block.dnText := by
    intro hinfix
    -- there would be fewer colons than in the DN
    have hlt : (removeText ldapPrefix block.dnText).count ':' < block.dnText.count ':' :=
      count_removeText_lt (by decide) hinfix
    have hle := count_gpoDnToGplinkCase_le tables (c := ':') (by decide) (by decide)
      (tables.lower (removeText ldapPrefix block.dnText))
    rw [CaseTables.count_lower (by decide) (by decide)] at hle
    have heq := congrArg (List.count ':') hlower
    rw [CaseTables.count_lower (by decide) (by decide), CaseTables.count_lower (by decide)
      (by decide), ldapToGpo, hremove] at heq
    omega
  have hgpo : ldapToGpo tables (block.ldap ++ block.dnText) = tables.lower block.dnText := by
    rw [ldapToGpo, hremove, removeText, replaceText_of_not_infix hno]
  refine ⟨⟨hldap, hbrackets, hno, ?_, hoption⟩, hgpo⟩
  rw [hgpo] at hlower
  by_cases hwf : ∀ rdn ∈ (tables.lower block.dnText).splitOn ',', rdn.count '=' = 1
  · refine .inl ⟨fun rdn hrdn => ?_, keepsFirstValue_of_lower_case hwf hlower.symm⟩
    rw [← @CaseTables.count_lower tables _ _ (by decide) (by decide)]
    refine hwf _ ?_
    rw [CaseTables.splitOn_lower (by decide) (by decide)]
    exact List.mem_map_of_mem hrdn
  · obtain ⟨rdn, hmem, hne, heq⟩ := gpoDnToGplinkCase_of_not_wf tables hwf
    have hcomma : ',' ∉ block.dnText := by
      rw [← @CaseTables.mem_lower tables _ _ (by decide) (by decide), hlower, heq,
        CaseTables.mem_lower (by decide) (by decide)]
      exact Path.not_mem_of_mem_splitOn hmem
    refine .inr ⟨hcomma, ?_⟩
    rw [CaseTables.splitOn_lower (by decide) (by decide), List.splitOn_eq_singleton hcomma,
      List.map_singleton, List.mem_singleton] at hmem
    rwa [hmem, CaseTables.count_lower (by decide) (by decide)] at hne

/-- If every edit keeps the others, the links survive and agree: an edit that moves the link
    of no other policy to nowhere leaves all of them to be written. -/
theorem survives_of_keepsOthers (h : ∀ gpo e, KeepsOthers tables blocks gpo
      ((Gplink.ofString tables (gplinkText blocks)).editGpo tables gpo e)) :
    (∀ block ∈ blocks, block.Survives tables) ∧ SameOptions tables blocks := by
  obtain ⟨gpo, hgpo, hfresh⟩ :=
    exists_fresh tables (blocks.map fun block => tables.lower block.dnText)
  have hsub := h gpo (.move 0)
  have hedit : (Gplink.ofString tables (gplinkText blocks)).editGpo tables gpo (.move 0) =
      Gplink.ofString tables (gplinkText blocks) := by
    rw [Gplink.editGpo, Gplink.move, if_pos (by omega)]
  have hothers : others tables blocks gpo =
      blocks.map fun block => (tables.lower block.dnText, (block.optionValue : ℤ)) := by
    rw [others, List.filter_eq_self.2]
    intro block hblock
    rw [hgpo]
    exact decide_eq_true fun heq => hfresh (heq ▸ List.mem_map_of_mem hblock)
  rw [hedit, KeepsOthers, hothers] at hsub
  have hbrackets : ∀ block ∈ blocks,
      '[' ∉ block.dnText ∧ ']' ∉ block.dnText ∧ ';' ∉ block.dnText := by
    intro block hblock
    have hmem := hsub.subset (List.mem_map_of_mem hblock)
    rw [Gplink.written, List.map_map] at hmem
    obtain ⟨gpo', hgpo', heq⟩ := List.mem_map.1 hmem
    obtain ⟨hopen, hclose, hsemi⟩ := brackets_of_mem_gpoList (List.mem_reverse.1 hgpo')
    have hlower := (Prod.mk.inj heq).1
    have hchar : ∀ c, c.val < 128 → c.isAlpha = false → c ∉ gpo' → c ∉ block.dnText := by
      intro c hascii hletter hc
      rw [← @CaseTables.mem_lower tables _ _ hascii hletter, ← hlower,
        CaseTables.mem_lower hascii hletter]
      exact not_mem_gpoDnToGplinkCase hascii hletter hc
    exact ⟨hchar _ (by decide) (by decide) hopen, hchar _ (by decide) (by decide) hclose,
      hchar _ (by decide) (by decide) hsemi⟩
  -- as many links are written as there are, so they are the same
  have hnamed := (parts_gplinkText tables hbrackets).2
  have hlist : (Gplink.ofString tables (gplinkText blocks)).gpoList.reverse =
      blocks.map fun block => ldapToGpo tables (block.ldap ++ block.dnText) := by
    rw [Gplink.ofString_gpoList, hnamed, List.reverse_reverse]
  rw [Gplink.written, hlist, List.map_map, List.map_map] at hsub
  have hequal := List.map_inj_left.1
    (hsub.eq_of_length (by rw [List.length_map, List.length_map]))
  have hblock : ∀ block ∈ blocks, block.Survives tables ∧
      ldapToGpo tables (block.ldap ++ block.dnText) = tables.lower block.dnText := by
    intro block hmem
    obtain ⟨hlower, hoption⟩ := Prod.mk.inj (hequal block hmem)
    have hmax := BitVec.toInt_lt (x := (Gplink.ofString tables (gplinkText blocks)).options.value
      (ldapToGpo tables (block.ldap ++ block.dnText)) 0)
    refine LinkBlock.survives_of_written (hbrackets block hmem) hlower ?_
    have hvalue : (block.optionValue : ℤ) = ((Gplink.ofString tables
        (gplinkText blocks)).options.value (ldapToGpo tables (block.ldap ++ block.dnText)) 0).toInt :=
      hoption
    omega
  refine ⟨fun block hmem => (hblock block hmem).1, fun block hmem block' hmem' heq => ?_⟩
  have hoption := (Prod.mk.inj (hequal block hmem)).2
  have hoption' := (Prod.mk.inj (hequal block' hmem')).2
  dsimp only [Function.comp_apply] at hoption hoption'
  rw [(hblock block hmem).2, heq] at hoption
  rw [(hblock block' hmem').2] at hoption'
  exact Int.ofNat_inj.1 (hoption.trans hoption'.symm)

/-! ## The result -/

/-- Whatever edits the link to whichever policy, the text that is written keeps the other
    links; and so does each text that is written when a policy is deleted, whatever the
    directory answers. -/
structure KeepsOthersAlways (tables : CaseTables) (blocks : List LinkBlock) : Prop where
  edit : ∀ gpo e, KeepsOthers tables blocks gpo
    ((Gplink.ofString tables (gplinkText blocks)).editGpo tables gpo e)
  gpoUnlink : ∀ {σ : Type} (rt : Runtime) (ldap : Ldap σ) (s : σ) (domainDn dn : String),
    ∀ object ∈ (adSearch ldap s domainDn .all ("(gPLink=*" ++ dn ++ "*)") ["gPLink"] false).2.values,
    (object.getString rt "gPLink").toList = gplinkText blocks →
    ∃ gplink : Gplink, KeepsOthers tables blocks dn.toList gplink ∧
      (object.dn, String.ofList (gplink.toString tables)) ∈ (gpoUnlink tables rt ldap domainDn dn s).2

/-- The other links are kept, whatever the edit, exactly when all links survive being read and
    written, and links to the same policy have the same option. -/
theorem keepsOthers_iff (tables : CaseTables) (blocks : List LinkBlock) :
    KeepsOthersAlways tables blocks ↔
      (∀ block ∈ blocks, block.Survives tables) ∧ SameOptions tables blocks := by
  refine ⟨fun h => survives_of_keepsOthers h.edit, fun ⟨hblocks, hsame⟩ => ?_⟩
  have hedit := keepsOthers_of_survives hblocks hsame
  refine ⟨hedit, fun rt ldap s domainDn dn object hobject htext => ?_⟩
  -- a policy is unlinked by the edit that removes it
  refine ⟨_, hedit dn.toList .remove, ?_⟩
  rw [← htext]
  exact mem_gpoUnlinkFrom hobject

/-- A link to the policy "CN=A,DC=alt", with the prefix in lower case: after a link to another
    policy is added, it is written as a link to "ldap://cn=A,DC=alt". -/
theorem not_keepsOthers_lowerPrefix : ∃ blocks : List LinkBlock,
    gplinkText blocks = "[ldap://CN=A,DC=alt;0]".toList ∧
    ¬KeepsOthers .ascii blocks "CN=B,DC=alt".toList ((Gplink.ofString .ascii
      (gplinkText blocks)).editGpo .ascii "CN=B,DC=alt".toList .add) := by
  let alt : Dn.Value := .string [.plain 'a' (by decide), .plain 'l' (by decide),
    .plain 't' (by decide)] (by rintro c ⟨⟩; decide) (by rintro c ⟨⟩; decide)
  let a : Dn.Value := .string [.plain 'A' (by decide)] (by rintro c ⟨⟩; decide)
    (by rintro c ⟨⟩; decide)
  let block : LinkBlock :=
    { ldap := "ldap://".toList
      dn := [.single .cn a, .single .dc alt]
      option := ['0']
      ldap_lower := rfl
      option_digits := ⟨by decide, List.forall_mem_singleton.2 (by decide)⟩ }
  refine ⟨[block], by decide, ?_⟩
  rw [KeepsOthers]
  decide

end Admc
