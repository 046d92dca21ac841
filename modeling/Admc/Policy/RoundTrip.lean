import Admc.Policy.Gplink

/-!
# Writing links and reading them back

`Gplink::to_string` writes the DNs of the policies with some letters in upper
case, the last policy first; the constructor puts what it reads first in the list
and back in lower case.

* `gpoDnToGplinkCase_of_wf`: how a DN comes out whose components have one "=" each;
* `roundTrip_run`: what edits of the empty list of links lead to is the same when
  it is written and read back, if the policies are given by DNs like those of the
  directory (`PlainDn`).
-/

namespace Admc

variable {tables : CaseTables}

/-! ## Letter case of DNs -/

/-- How a component of a DN is written. -/
def rdnCase (tables : CaseTables) (rdnList : List QString) (rdn : QString) : QString :=
  match rdn.splitOn '=' with
  | [attr, value] =>
    let attributeCase := if attr = "dc".toList then tables.upper attr else attr
    let valueCase := if indexOf rdnList rdn = 0 then tables.upper value else value
    ['='].intercalate [attributeCase, valueCase]
  | _ => rdn

theorem gpoDnToGplinkCaseFrom_of_wf {rdnList rdns rdnListCase : List QString}
    (h : ∀ rdn ∈ rdns, rdn.count '=' = 1) :
    gpoDnToGplinkCaseFrom tables rdnList rdns rdnListCase =
      [','].intercalate (rdnListCase ++ rdns.map (rdnCase tables rdnList)) := by
  induction rdns generalizing rdnListCase with
  | nil => rw [gpoDnToGplinkCaseFrom, List.map_nil, List.append_nil]
  | cons rdn rdns ih =>
    rw [List.forall_mem_cons] at h
    obtain ⟨attr, value, -, -, -, hsplit⟩ := Path.exists_of_count_eq_one h.1
    rw [gpoDnToGplinkCaseFrom, List.map_cons, rdnCase, hsplit]
    dsimp only
    rw [ih h.2, List.append_assoc]
    rfl

/-- A DN whose components have one "=" each is written component by component. -/
theorem gpoDnToGplinkCase_of_wf {rdnList : List QString} (h : ∀ rdn ∈ rdnList, rdn.count '=' = 1) :
    gpoDnToGplinkCase tables rdnList = [','].intercalate (rdnList.map (rdnCase tables rdnList)) :=
  gpoDnToGplinkCaseFrom_of_wf h

/-- Writing a component keeps the characters of ASCII that are not letters. -/
theorem count_rdnCase {c : Char} (hascii : c.val < 128) (hletter : c.isAlpha = false)
    (rdnList : List QString) (rdn : QString) :
    (rdnCase tables rdnList rdn).count c = rdn.count c := by
  rw [rdnCase]
  split
  · rename_i attr value hsplit
    have hrdn : rdn = ['='].intercalate [attr, value] := by
      rw [← hsplit, List.intercalate_splitOn]
    have hcount : ∀ {text : QString} {p : Prop} [Decidable p],
        (if p then tables.upper text else text).count c = text.count c := by
      intro text p _
      split_ifs
      exacts [CaseTables.count_upper hascii hletter, rfl]
    rw [Path.intercalate_pair] at hrdn ⊢
    rw [List.count_append, List.count_cons, hcount, hcount, hrdn, List.count_append,
      List.count_cons]
  · rfl

/-- A component is the same in lower case as before, if its value is, when it is written
    in upper case. -/
theorem lower_rdnCase {rdnList : List QString} {rdn attr value : QString}
    (hsplit : rdn.splitOn '=' = [attr, value])
    (hvalue : indexOf rdnList rdn = 0 → tables.lower (tables.upper value) = tables.lower value) :
    tables.lower (rdnCase tables rdnList rdn) = tables.lower rdn := by
  have hattr : tables.lower (if attr = "dc".toList then tables.upper attr else attr) =
      tables.lower attr := by
    split_ifs with hdc
    · exact CaseTables.lower_upper_of_ascii (by rw [hdc]; exact forall_mem_of_all (by decide))
    · rfl
  have hvalue' : tables.lower (if indexOf rdnList rdn = 0 then tables.upper value else value) =
      tables.lower value := by
    split_ifs with hfirst
    exacts [hvalue hfirst, rfl]
  have hrdn : rdn = attr ++ '=' :: value := by
    rw [← Path.intercalate_pair, ← hsplit, List.intercalate_splitOn]
  rw [rdnCase, hsplit]
  dsimp only
  rw [Path.intercalate_pair, CaseTables.lower_append, hattr, ← List.singleton_append,
    CaseTables.lower_append, hvalue', ← CaseTables.lower_append, ← CaseTables.lower_append,
    List.singleton_append, ← hrdn]

/-- A component without one "=" is all that comes out. -/
theorem gpoDnToGplinkCaseFrom_of_not_wf {rdnList rdns rdnListCase : List QString}
    (h : ¬∀ rdn ∈ rdns, rdn.count '=' = 1) :
    ∃ rdn ∈ rdns, rdn.count '=' ≠ 1 ∧
      gpoDnToGplinkCaseFrom tables rdnList rdns rdnListCase = rdn := by
  induction rdns generalizing rdnListCase with
  | nil => exact absurd (fun _ h => absurd h List.not_mem_nil) h
  | cons rdn rdns ih =>
    by_cases hrdn : rdn.count '=' = 1
    · rw [List.forall_mem_cons, not_and] at h
      obtain ⟨attr, value, -, -, -, hsplit⟩ := Path.exists_of_count_eq_one hrdn
      rw [gpoDnToGplinkCaseFrom, hsplit]
      obtain ⟨rdn', hmem, hne, heq⟩ := ih (h hrdn)
      exact ⟨rdn', List.mem_cons_of_mem _ hmem, hne, heq⟩
    · refine ⟨rdn, List.mem_cons_self, hrdn, ?_⟩
      rw [gpoDnToGplinkCaseFrom]
      split
      · rename_i hsplit
        have hlength := Path.length_splitOn '=' rdn
        rw [hsplit, List.length_cons, List.length_singleton] at hlength
        exact absurd (Nat.add_right_cancel hlength).symm hrdn
      · rfl

theorem gpoDnToGplinkCase_of_not_wf (tables : CaseTables) {rdnList : List QString}
    (h : ¬∀ rdn ∈ rdnList, rdn.count '=' = 1) :
    ∃ rdn ∈ rdnList, rdn.count '=' ≠ 1 ∧ gpoDnToGplinkCase tables rdnList = rdn :=
  gpoDnToGplinkCaseFrom_of_not_wf h

/-- Characters of ASCII that are not letters come from the DN. -/
theorem count_gpoDnToGplinkCase_le (tables : CaseTables) {c : Char} (hascii : c.val < 128)
    (hletter : c.isAlpha = false)
    (gpo : QString) :
    (gpoDnToGplinkCase tables (gpo.splitOn ',')).count c ≤ gpo.count c := by
  by_cases h : ∀ rdn ∈ gpo.splitOn ',', rdn.count '=' = 1
  · rw [gpoDnToGplinkCase_of_wf h, Path.count_intercalate_congr fun rdn _ =>
      count_rdnCase hascii hletter _ rdn, List.intercalate_splitOn]
  · obtain ⟨rdn, hmem, -, heq⟩ := gpoDnToGplinkCase_of_not_wf tables h
    rw [heq]
    exact Path.count_le_of_mem_splitOn hmem c

theorem not_mem_gpoDnToGplinkCase {c : Char} (hascii : c.val < 128) (hletter : c.isAlpha = false)
    {gpo : QString} (h : c ∉ gpo) : c ∉ gpoDnToGplinkCase tables (gpo.splitOn ',') := by
  have hcount := count_gpoDnToGplinkCase_le tables hascii hletter gpo
  rw [List.count_eq_zero_of_not_mem h] at hcount
  exact List.count_eq_zero.1 (Nat.le_zero.1 hcount)

/-- What is written as the value of the first component is read again. -/
def KeepsFirstValue (tables : CaseTables) (gpo : QString) : Prop :=
  ∀ attr value rest, '=' ∉ attr → gpo.splitOn ',' = (attr ++ '=' :: value) :: rest →
    tables.lower (tables.upper value) = tables.lower value

/-- A DN is the same in lower case as before, when it is written. -/
theorem lower_gpoDnToGplinkCase {gpo : QString} (hrdns : ∀ rdn ∈ gpo.splitOn ',', rdn.count '=' = 1)
    (hvalue : KeepsFirstValue tables gpo) :
    tables.lower (gpoDnToGplinkCase tables (gpo.splitOn ',')) = tables.lower gpo := by
  have hcomma : tables.toLower ',' = [','] :=
    CaseTables.toLower_of_not_letter (by decide) (by decide)
  obtain ⟨first, rest, hsplit⟩ := List.exists_cons_of_ne_nil (List.splitOn_ne_nil ',' gpo)
  have hmap : (gpo.splitOn ',').map (tables.lower ∘ rdnCase tables (gpo.splitOn ',')) =
      (gpo.splitOn ',').map tables.lower := by
    refine List.map_congr_left fun rdn hrdn => ?_
    obtain ⟨attr, value, hattr, -, rfl, heq⟩ := Path.exists_of_count_eq_one (hrdns rdn hrdn)
    refine lower_rdnCase heq fun hfirst => ?_
    rw [hsplit] at hfirst
    exact hvalue attr value rest hattr (by rw [hsplit, eq_of_indexOf_cons_eq_zero hfirst])
  rw [gpoDnToGplinkCase_of_wf hrdns, CaseTables.lower, Path.flatMap_intercalate hcomma,
    List.map_map]
  refine (congrArg [','].intercalate hmap).trans ?_
  refine (Path.flatMap_intercalate hcomma _).symm.trans ?_
  rw [List.intercalate_splitOn]
  rfl

namespace Gplink

variable {gplink : Gplink}

/-! ## Parts of a text -/

/-- The parts of a text are what is between its brackets, and nothing behind the last one. -/
theorem parts_flatten {bodies : List QString} (h : ∀ body ∈ bodies, '[' ∉ body ∧ ']' ∉ body) :
    parts (bodies.map fun body => '[' :: (body ++ [']'])).flatten = bodies ++ [[]] := by
  have hfilter : ((bodies.map fun body => '[' :: (body ++ [']'])).flatten).filter (· ≠ '[') =
      (bodies.map (· ++ [']'])).flatten := by
    rw [List.filter_flatten, List.map_map]
    refine congrArg List.flatten (List.map_congr_left fun body hbody => ?_)
    rw [Function.comp_apply, List.filter_cons_of_neg (by decide), List.filter_append]
    congr 1
    exact List.filter_eq_self.2 fun c hc => decide_eq_true fun heq => (h body hbody).1 (heq ▸ hc)
  rw [parts, replaceText_singleton_nil, hfilter,
    Path.splitOn_flatten_map fun body hbody => (h body hbody).2]

theorem namedGpo_append {text option : QString} (htext : ';' ∉ text) (hoption : ';' ∉ option) :
    namedGpo tables (text ++ ';' :: option) = some (ldapToGpo tables text) := by
  rw [namedGpo, List.splitOn_append_cons_self_of_not_mem htext, List.splitOn_eq_singleton hoption]

theorem partOption_append {text option : QString} (htext : ';' ∉ text) (hoption : ';' ∉ option) :
    partOption (text ++ ';' :: option) = BitVec.ofInt 32 (toInt option) := by
  rw [partOption, List.splitOn_append_cons_self_of_not_mem htext, List.splitOn_eq_singleton hoption]

/-- How a policy of the list is written, between the brackets. -/
def body (tables : CaseTables) (gplink : Gplink) (gpo : QString) : QString :=
  ldapPrefix ++ gpoDnToGplinkCase tables (gpo.splitOn ',') ++
    ';' :: number (gplink.options.value gpo 0).toInt

theorem toString_eq : gplink.toString tables =
    ((gplink.gpoList.reverse.map (gplink.body tables)).map fun body =>
      '[' :: (body ++ [']'])).flatten := by
  rw [toString, List.map_map]
  refine congrArg List.flatten (List.map_congr_left fun gpo _ => ?_)
  simp [partText, body]

theorem not_mem_number {n : ℤ} {c : Char} (hminus : c ≠ '-') (hdigit : c.isDigit = false) :
    c ∉ number n := by
  intro h
  rcases mem_number h with h | h
  · exact hminus h
  · rw [hdigit] at h
    exact absurd h nofun

/-- An option that is written is read again. -/
theorem ofInt_toInt_number (option : BitVec 32) :
    BitVec.ofInt 32 (toInt (number option.toInt)) = option := by
  have hmin := BitVec.le_toInt option
  have hmax := BitVec.toInt_lt (x := option)
  rw [toInt, toInteger_number hmin hmax, BitVec.ofInt_toInt]

/-! ## Plain DNs -/

/-- The DN of a policy as in a directory: a text of ASCII whose components have one "=" each,
    without brackets, semicolons and prefixes. -/
structure PlainDn (tables : CaseTables) (gpo : QString) : Prop where
  ascii : ∀ c ∈ gpo, c.val < 128
  rdns : ∀ rdn ∈ gpo.splitOn ',', rdn.count '=' = 1
  brackets : '[' ∉ gpo ∧ ']' ∉ gpo ∧ ';' ∉ gpo
  noPrefix : ¬"ldap://".toList <:+: tables.lower gpo

theorem PlainDn.lower {gpo : QString} (h : PlainDn tables gpo) :
    PlainDn tables (tables.lower gpo) where
  ascii := CaseTables.ascii_lower h.ascii
  rdns := by
    rw [CaseTables.splitOn_lower (by decide) (by decide)]
    intro rdn hrdn
    obtain ⟨rdn, hmem, rfl⟩ := List.mem_map.1 hrdn
    rw [CaseTables.count_lower (by decide) (by decide), h.rdns rdn hmem]
  brackets := by
    rw [CaseTables.mem_lower (by decide) (by decide), CaseTables.mem_lower (by decide) (by decide),
      CaseTables.mem_lower (by decide) (by decide)]
    exact h.brackets
  noPrefix := by
    rw [CaseTables.lower_lower]
    exact h.noPrefix

theorem PlainDn.keepsFirstValue {gpo : QString} (h : PlainDn tables gpo) :
    KeepsFirstValue tables gpo := by
  intro attr value rest _ hsplit
  refine CaseTables.lower_upper_of_ascii fun c hc => h.ascii c ?_
  rw [← @List.intercalate_splitOn _ gpo _ _ ',', hsplit]
  cases rest with
  | nil => simp [List.intercalate, hc]
  | cons rdn rest =>
    rw [Path.intercalate_cons_cons]
    simp [hc]

/-- A plain DN is read again as it is written. -/
theorem PlainDn.ldapToGpo {gpo : QString} (h : PlainDn tables gpo)
    (hlower : tables.lower gpo = gpo) :
    ldapToGpo tables (ldapPrefix ++ gpoDnToGplinkCase tables (gpo.splitOn ',')) = gpo := by
  have hcase := lower_gpoDnToGplinkCase h.rdns h.keepsFirstValue
  have hldap : tables.lower ldapPrefix = "ldap://".toList := by
    rw [CaseTables.lower_of_ascii (forall_mem_of_all (by decide))]
    decide
  have hno : ¬ldapPrefix <:+: gpoDnToGplinkCase tables (gpo.splitOn ',') := by
    intro hinfix
    have := CaseTables.lower_infix tables hinfix
    rw [hldap, hcase] at this
    exact h.noPrefix this
  rw [Admc.ldapToGpo, removeText, replaceText_append (by decide), List.nil_append,
    replaceText_of_not_infix hno, hcase, hlower]

/-! ## The round trip -/

/-- Edits put no policies in the list but those that are added. -/
theorem mem_edit {e : GplinkEdit} {gpo : QString} (h : gpo ∈ (gplink.edit tables e).gpoList) :
    gpo ∈ gplink.gpoList ∨ ∃ gpo', e = .add gpo' ∧ gpo = tables.lower gpo' := by
  cases e with
  | add gpo' =>
    rw [edit, add] at h
    split_ifs at h
    · exact .inl h
    · rcases List.mem_append.1 h with h | h
      · exact .inl h
      · exact .inr ⟨gpo', rfl, List.mem_singleton.1 h⟩
  | remove gpo' =>
    rw [edit, remove] at h
    split_ifs at h
    · exact .inl (List.mem_of_mem_filter h)
    · exact .inl h
  | moveUp gpo' => exact .inl ((moveUp_perm gpo').mem_iff.1 h)
  | moveDown gpo' => exact .inl ((moveDown_perm gpo').mem_iff.1 h)
  | move fromOrder toOrder => exact .inl ((move_perm fromOrder toOrder).mem_iff.1 h)
  | setOption gpo' option value =>
    rw [edit, setOption] at h
    split_ifs at h <;> exact .inl h

theorem plainDn_run {edits : List GplinkEdit} (hedits : ∀ gpo, .add gpo ∈ edits → PlainDn tables gpo)
    (h : ∀ gpo ∈ gplink.gpoList, PlainDn tables gpo) :
    ∀ gpo ∈ (gplink.run tables edits).gpoList, PlainDn tables gpo := by
  induction edits generalizing gplink with
  | nil => exact h
  | cons e edits ih =>
    refine ih (fun gpo hmem => hedits gpo (List.mem_cons_of_mem _ hmem)) fun gpo hmem => ?_
    obtain hmem | ⟨gpo', rfl, rfl⟩ := mem_edit hmem
    · exact h gpo hmem
    · exact (hedits gpo' List.mem_cons_self).lower

/-- The parts of a written text name the policies, the last one first. -/
theorem parts_toString (hlower : ∀ gpo ∈ gplink.gpoList, tables.lower gpo = gpo)
    (hplain : ∀ gpo ∈ gplink.gpoList, PlainDn tables gpo) :
    parts (gplink.toString tables) = gplink.gpoList.reverse.map (gplink.body tables) ++ [[]] ∧
      ∀ gpo ∈ gplink.gpoList, namedGpo tables (gplink.body tables gpo) = some gpo ∧
        partOption (gplink.body tables gpo) = gplink.options.value gpo 0 := by
  have hbody : ∀ gpo ∈ gplink.gpoList, ∀ c, c ∉ gpo → c ∉ ldapPrefix → c.val < 128 →
      c.isAlpha = false → c ∉ ldapPrefix ++ gpoDnToGplinkCase tables (gpo.splitOn ',') := by
    intro gpo _ c hgpo hldap hascii hletter hmem
    exact (List.mem_append.1 hmem).elim hldap (not_mem_gpoDnToGplinkCase hascii hletter hgpo)
  constructor
  · rw [toString_eq]
    refine parts_flatten fun body hmem => ?_
    obtain ⟨gpo, hgpo, rfl⟩ := List.mem_map.1 hmem
    rw [List.mem_reverse] at hgpo
    obtain ⟨hopen, hclose, -⟩ := (hplain gpo hgpo).brackets
    constructor <;> rw [body, List.mem_append, not_or, List.mem_cons, not_or]
    · exact ⟨hbody gpo hgpo _ hopen (by decide) (by decide) (by decide), by decide,
        not_mem_number (by decide) (by decide)⟩
    · exact ⟨hbody gpo hgpo _ hclose (by decide) (by decide) (by decide), by decide,
        not_mem_number (by decide) (by decide)⟩
  · intro gpo hgpo
    have htext := hbody gpo hgpo ';' (hplain gpo hgpo).brackets.2.2 (by decide) (by decide)
      (by decide)
    have hnumber : ';' ∉ number (gplink.options.value gpo 0).toInt :=
      not_mem_number (by decide) (by decide)
    rw [body, namedGpo_append htext hnumber, partOption_append htext hnumber,
      (hplain gpo hgpo).ldapToGpo (hlower gpo hgpo), ofInt_toInt_number]
    exact ⟨rfl, rfl⟩

/-- Links to policies with plain DNs are the same when they are written and read. -/
theorem ofString_toString (hlower : ∀ gpo ∈ gplink.gpoList, tables.lower gpo = gpo)
    (hplain : ∀ gpo ∈ gplink.gpoList, PlainDn tables gpo) :
    (ofString tables (gplink.toString tables)).gpoList = gplink.gpoList ∧
      ∀ gpo ∈ gplink.gpoList, (ofString tables (gplink.toString tables)).options.value gpo 0 =
        gplink.options.value gpo 0 := by
  obtain ⟨hparts, hbodies⟩ := parts_toString hlower hplain
  have hnamed : (parts (gplink.toString tables)).filterMap (namedGpo tables) =
      gplink.gpoList.reverse := by
    rw [hparts, List.filterMap_append, List.filterMap_map]
    have hnil : [[]].filterMap (namedGpo tables) = [] := rfl
    rw [hnil, List.append_nil]
    refine (List.filterMap_congr (g := some) fun gpo hgpo => ?_).trans List.filterMap_some
    exact (hbodies gpo (List.mem_reverse.1 hgpo)).1
  refine ⟨by rw [ofString_gpoList, hnamed, List.reverse_reverse], fun gpo hgpo => ?_⟩
  rw [ofString_eq]
  refine foldl_readPart_value (fun part hpart hname => ?_) (.inl ?_)
  · rw [hparts, List.mem_append, List.mem_singleton] at hpart
    rcases hpart with hpart | rfl
    · obtain ⟨gpo', hgpo', rfl⟩ := List.mem_map.1 hpart
      obtain ⟨hname', hoption⟩ := hbodies gpo' (List.mem_reverse.1 hgpo')
      rw [hname'] at hname
      rw [hoption, Option.some.inj hname]
    · exact absurd hname nofun
  · rw [hnamed, List.mem_reverse]
    exact hgpo

/-- Whatever edits of the empty list of links lead to, by adding policies with plain DNs, is
    the same when it is written and read back: in its list, its options, and its text. -/
theorem roundTrip_run (tables : CaseTables) (edits : List GplinkEdit)
    (hedits : ∀ gpo, .add gpo ∈ edits → PlainDn tables gpo) :
    let gplink := empty.run tables edits
    let read := ofString tables (gplink.toString tables)
    read.gpoList = gplink.gpoList ∧
      (∀ gpo ∈ gplink.gpoList, read.options.value gpo 0 = gplink.options.value gpo 0) ∧
      read.toString tables = gplink.toString tables := by
  have hwf := (wf_empty tables).run edits
  obtain ⟨hlist, hoptions⟩ := ofString_toString hwf.lower_eq
    (plainDn_run hedits fun _ h => absurd h List.not_mem_nil)
  refine ⟨hlist, hoptions, ?_⟩
  rw [toString, hlist]
  refine congrArg List.flatten (List.map_congr_left fun gpo hgpo => ?_)
  rw [hoptions gpo (List.mem_reverse.1 hgpo)]

/-- Two policies are linked, one is enforced and moved up. -/
theorem roundTrip_run_two :
    let gplink := empty.run .ascii [.add "CN={31B2},CN=Policies,DC=alt".toList,
      .add "CN={6AC1},CN=Policies,DC=alt".toList,
      .setOption "cn={6ac1},cn=policies,dc=alt".toList .enforced true,
      .moveUp "CN={6AC1},CN=Policies,DC=alt".toList]
    (ofString .ascii (gplink.toString .ascii)).gpoList = gplink.gpoList :=
  (roundTrip_run .ascii _ (by
    intro gpo hmem
    rcases List.mem_cons.1 hmem with h | hmem
    · rw [GplinkEdit.add.inj h]
      exact ⟨forall_mem_of_all (by decide), by decide, by decide,
        by decide⟩
    · rcases List.mem_cons.1 hmem with h | hmem
      · rw [GplinkEdit.add.inj h]
        exact ⟨forall_mem_of_all (by decide), by decide, by decide,
        by decide⟩
      · simp at hmem)).1

/-- A DN that contains the prefix in upper case: it is lost on the way, although "ldap://"
    does not occur in the DN. -/
theorem not_roundTrip_upperPrefix :
    let gpo := "CN=LDAP://X,DC=alt".toList
    ((∀ c ∈ gpo, c.val < 128) ∧ (∀ rdn ∈ gpo.splitOn ',', rdn.count '=' = 1) ∧
      ('[' ∉ gpo ∧ ']' ∉ gpo ∧ ';' ∉ gpo) ∧ ¬"ldap://".toList <:+: gpo) ∧
    let gplink := empty.run .ascii [.add gpo]
    (ofString .ascii (gplink.toString .ascii)).gpoList ≠ gplink.gpoList :=
  ⟨⟨forall_mem_of_all (by decide), by decide, by decide,
    by decide⟩, by decide⟩

end Gplink

end Admc
