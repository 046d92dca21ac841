import Admc.Policy.LinkOps

/-!
# Links that cannot be read

An operation that reads the links of a unit writes back what it has read, with the change
that is asked for. When the read fails, it writes what it would to a unit without links,
and the links are lost.

`linksSurvive_iff`: links are kept, and none are replaced that could not be read, exactly
when for each unit the read succeeds, or the write is refused, or there is nothing to write
and the second read, that of `attribute_replace_values`, finds nothing either.
-/

namespace Admc

section
variable {tables : CaseTables} {rt : Runtime} {outcomes : RequestOutcomes} {s : LinkServer}
  {ou : String}

/-- The values of an attribute with such a text. -/
def textValues (text : QString) : List QByteArray := valueToList (toUtf8 (String.ofList text))

theorem textValues_eq_nil_iff (hrt : rt.DecodesUtf8) {text : QString} :
    textValues text = [] ↔ text = [] := by
  constructor
  · intro h
    by_contra hne
    have hbytes := toUtf8_ne_nil hrt fun he => hne (String.ofList_injective (he.trans rfl))
    rw [textValues, valueToList, if_neg (by simpa using hbytes)] at h
    exact List.cons_ne_nil _ _ h
  · rintro rfl
    rfl

/-- A text that is written is read again. -/
theorem headD_textValues (hrt : rt.DecodesUtf8) (text : QString) :
    (((textValues text).map rt.fromUtf8).headD "").toList = text := by
  by_cases hnil : text = []
  · rw [hnil]
    rfl
  · have hne := mt (textValues_eq_nil_iff hrt).1 hnil
    rw [textValues, valueToList] at hne ⊢
    split_ifs at hne ⊢ with hempty
    · exact absurd rfl hne
    · rw [List.map_singleton, List.headD_cons, hrt, String.toList_ofList]

/-- The server after a read. -/
def LinkServer.read (s : LinkServer) (outcomes : RequestOutcomes) : LinkServer :=
  { s with reads := s.reads + 1, beforeLast := s.last, last := outcomes.read s.reads }

/-- The text that a read gives of links. -/
def ReadOutcome.text (outcome : ReadOutcome) (text : QString) : QString :=
  if outcome = .value then text else []

theorem adSearch_linkLdap {attributes : List String} :
    (adSearch (linkLdap outcomes) s ou .object "" attributes false).1 = s.read outcomes := rfl

/-- A read gives the values of the links, or none. -/
theorem getValues_linkLdap {attributes : List String} :
    ((adSearch (linkLdap outcomes) s ou .object "" attributes false).2.value ou
      .empty).getValues "gPLink" = if outcomes.read s.reads = .value then s.stored ou else [] := by
  rw [adSearch, linkLdap]
  cases houtcome : outcomes.read s.reads <;>
    simp [houtcome, searchResults, searchResultsFrom, AdObject.getValues, AdObject.empty,
      QHash.insert, QHash.value]

theorem gplinkString_linkLdap {attributes : List String} :
    ((adSearch (linkLdap outcomes) s ou .object "" attributes false).2.value ou
      .empty).gplinkString rt = (outcomes.read s.reads).text (s.gplinkString rt ou) := by
  rw [AdObject.gplinkString, AdObject.getString, if_neg (by decide), AdObject.getStrings,
    getValues_linkLdap, ReadOutcome.text]
  split_ifs <;> rfl

/-- The server after links have been written, where there is something to write or to
    replace. -/
def LinkServer.replace (s : LinkServer) (outcomes : RequestOutcomes) (ou : String)
    (text : QString) : LinkServer × Bool :=
  if text = [] ∧ (outcomes.read s.reads ≠ .value ∨ s.stored ou = []) then
    (s.read outcomes, true)
  else
    let requests := s.requests ++ [⟨ou, s.stored ou, textValues text⟩]
    if outcomes.accepts s.writes then
      ({ s.read outcomes with
        stored := Function.update s.stored ou (textValues text)
        writes := s.writes + 1
        requests := requests
        replaced := s.replaced ++ [(ou, s.last)] }, true)
    else ({ s.read outcomes with writes := s.writes + 1, requests := requests }, false)

theorem replaceGplink_linkLdap (hrt : rt.DecodesUtf8) (text : QString) :
    replaceGplink (linkLdap outcomes) s ou text = s.replace outcomes ou text := by
  have hnew : (textValues text).isEmpty = true ↔ text = [] :=
    List.isEmpty_iff.trans (textValues_eq_nil_iff hrt)
  have hold : (if outcomes.read s.reads = .value then s.stored ou else []) = [] ↔
      outcomes.read s.reads ≠ .value ∨ s.stored ou = [] := by
    split_ifs with hread
    · simp [hread]
    · simp [hread]
  unfold replaceGplink attributeReplaceString attributeReplaceValue attributeReplaceValues
    LinkServer.replace
  simp only [adSearchObject, getValues_linkLdap, adSearch_linkLdap]
  rw [show valueToList (toUtf8 (String.ofList text)) = textValues text from rfl]
  simp only [Bool.and_eq_true, hnew, List.isEmpty_iff, hold, and_comm, Bool.false_eq_true,
    false_and, if_false]
  split_ifs with hnothing haccepts
  · rfl
  · simp [linkLdap, LinkServer.read, haccepts]
  · simp [linkLdap, LinkServer.read, haccepts]

end

/-! ## One unit -/

section
variable (tables : CaseTables) (rt : Runtime) (outcomes : RequestOutcomes)

/-- The text of the links of a unit after they have been read and changed. -/
def LinkServer.editText (s : LinkServer) (ou : String) (change : Gplink → Gplink) : QString :=
  (change (Gplink.ofString tables
    ((outcomes.read s.reads).text (s.gplinkString rt ou)))).toString tables

/-- The server after the links of a unit have been read, changed and written. -/
def LinkServer.edit (s : LinkServer) (ou : String) (change : Gplink → Gplink) :
    LinkServer × Bool :=
  (s.read outcomes).replace outcomes ou (s.editText tables rt outcomes ou change)

/-- A text is written to a unit after a read: the write is not refused, and there is something
    to write or to replace. -/
def LinkServer.Replaces (s : LinkServer) (ou : String) (writes : Prop) : Prop :=
  outcomes.accepts s.writes = true ∧
    (writes ∨ outcomes.read (s.reads + 1) = .value ∧ s.stored ou ≠ [])

/-- The links of the unit are read, or they are not replaced by what a unit without links
    would get. -/
def LinkServer.EditsSafely (s : LinkServer) (ou : String) (writes : Prop) : Prop :=
  outcomes.read s.reads = .value ∨ ¬s.Replaces outcomes ou writes

end

/-- The DNs of the policies that are linked are plain. -/
def LinkServer.Plain (s : LinkServer) (tables : CaseTables) (rt : Runtime) : Prop :=
  ∀ ou, ∀ gpo ∈ s.links tables rt ou, Gplink.PlainDn tables gpo

/-- The links of all objects are kept, but for those to some policies. -/
def LinkServer.KeepsLinks (tables : CaseTables) (rt : Runtime) (removed : List QString)
    (s s' : LinkServer) : Prop :=
  ∀ ou, ∀ gpo ∈ s.links tables rt ou, gpo ∉ removed.map tables.lower →
    gpo ∈ s'.links tables rt ou

/-- A change that keeps the links, but for those to some policies, and makes links of none or
    not. -/
structure KeepsGpos (tables : CaseTables) (removed : List QString) (writes : Prop)
    (change : Gplink → Gplink) : Prop where
  toString_empty : (change .empty).toString tables = [] ↔ ¬writes
  kept : ∀ gplink, (∀ gpo, gpo ∈ gplink.options.keys ↔ gpo ∈ gplink.gpoList) →
    ∀ gpo ∈ gplink.gpoList, gpo ∉ removed.map tables.lower → gpo ∈ (change gplink).gpoList
  plain : ∀ gplink, (∀ gpo, gpo ∈ gplink.options.keys ↔ gpo ∈ gplink.gpoList) →
    (∀ gpo ∈ gplink.gpoList, tables.lower gpo = gpo ∧ Gplink.PlainDn tables gpo) →
    ∀ gpo ∈ (change gplink).gpoList, tables.lower gpo = gpo ∧ Gplink.PlainDn tables gpo

section
variable {tables : CaseTables} {rt : Runtime} {outcomes : RequestOutcomes} {s : LinkServer}
  {ou : String} {change : Gplink → Gplink} {removed : List QString} {writes : Prop}

theorem Gplink.lower_of_mem_ofString {text gpo : QString}
    (h : gpo ∈ (Gplink.ofString tables text).gpoList) : tables.lower gpo = gpo := by
  rw [Gplink.ofString_gpoList, List.mem_reverse, List.mem_filterMap] at h
  obtain ⟨part, -, hpart⟩ := h
  exact Gplink.lower_namedGpo hpart

/-- The links are replaced, and it is recorded how the read came out, or nothing happens to
    them. -/
theorem edit_cases : (s.edit tables rt outcomes ou change).1.stored = s.stored ∧
      (s.edit tables rt outcomes ou change).1.replaced = s.replaced ∨
    (s.edit tables rt outcomes ou change).1.stored =
        Function.update s.stored ou (textValues (s.editText tables rt outcomes ou change)) ∧
      (s.edit tables rt outcomes ou change).1.replaced =
        s.replaced ++ [(ou, outcomes.read s.reads)] := by
  rw [LinkServer.edit, LinkServer.replace]
  split_ifs
  · exact .inl ⟨rfl, rfl⟩
  · exact .inr ⟨rfl, rfl⟩
  · exact .inl ⟨rfl, rfl⟩

/-- A unit that cannot be read gets what a unit without links would. -/
theorem edit_failedRead (hread : outcomes.read s.reads ≠ .value)
    (haccepts : outcomes.accepts s.writes = true) (hne : (change .empty).toString tables ≠ []) :
    (s.edit tables rt outcomes ou change).1.stored ou =
      textValues ((change .empty).toString tables) := by
  have htext : (outcomes.read s.reads).text (s.gplinkString rt ou) = [] := if_neg hread
  have hempty : Gplink.ofString tables [] = .empty := rfl
  rw [LinkServer.edit, LinkServer.editText, LinkServer.replace, htext, hempty,
    if_neg fun h => hne h.1,
    if_pos (show outcomes.accepts (s.read outcomes).writes = true from haccepts)]
  exact Function.update_self _ _ _

/-- No links that could not be read are replaced exactly when the edit is safe. -/
theorem edit_replaced (hchange : KeepsGpos tables removed writes change) :
    ∃ new, (s.edit tables rt outcomes ou change).1.replaced = s.replaced ++ new ∧
      ((∀ entry ∈ new, entry.2 = .value) ↔ s.EditsSafely outcomes ou writes) := by
  by_cases hread : outcomes.read s.reads = .value
  · have hsafe : s.EditsSafely outcomes ou writes := .inl hread
    obtain ⟨-, hsame⟩ | ⟨-, hnew⟩ := @edit_cases tables rt outcomes s ou change
    · exact ⟨[], by rw [hsame, List.append_nil], iff_of_true nofun hsafe⟩
    · refine ⟨_, hnew, iff_of_true (fun entry hentry => ?_) hsafe⟩
      rw [List.mem_singleton.1 hentry, hread]
  · have htext : (outcomes.read s.reads).text (s.gplinkString rt ou) = [] := if_neg hread
    have hempty : Gplink.ofString tables [] = .empty := rfl
    unfold LinkServer.EditsSafely LinkServer.Replaces LinkServer.edit LinkServer.editText
      LinkServer.replace
    rw [htext, hempty, or_iff_right hread]
    split_ifs with hnothing haccepts <;> rw [hchange.toString_empty] at hnothing
    · refine ⟨[], (List.append_nil _).symm, iff_of_true nofun ?_⟩
      rintro ⟨-, h | h⟩
      · exact hnothing.1 h
      · exact hnothing.2.elim (fun hr => hr h.1) fun hs => h.2 hs
    · refine ⟨_, rfl, iff_of_false (fun h => hread (h _ List.mem_cons_self)) fun h => ?_⟩
      refine h ⟨haccepts, ?_⟩
      by_contra hcon
      rw [not_or, not_and_or, not_not] at hcon
      exact hnothing hcon
    · exact ⟨[], (List.append_nil _).symm, iff_of_true nofun fun h => haccepts h.1⟩

/-- The links that are written are those that are read. -/
theorem links_of_stored (hrt : rt.DecodesUtf8) {gplink : Gplink}
    (hstored : s.stored ou = textValues (gplink.toString tables))
    (hgpos : ∀ gpo ∈ gplink.gpoList, tables.lower gpo = gpo ∧ Gplink.PlainDn tables gpo) :
    s.links tables rt ou = gplink.gpoList := by
  rw [LinkServer.links, LinkServer.gplinkString, hstored, headD_textValues hrt]
  exact (Gplink.ofString_toString (fun gpo h => (hgpos gpo h).1) fun gpo h => (hgpos gpo h).2).1

theorem links_congr {s' : LinkServer} (h : s'.stored ou = s.stored ou) :
    s'.links tables rt ou = s.links tables rt ou := by
  rw [LinkServer.links, LinkServer.gplinkString, h]
  rfl

theorem mem_links_read {gpo : QString} (hplain : s.Plain tables rt)
    (h : gpo ∈ (Gplink.ofString tables
      ((outcomes.read s.reads).text (s.gplinkString rt ou))).gpoList) :
    tables.lower gpo = gpo ∧ Gplink.PlainDn tables gpo := by
  refine ⟨Gplink.lower_of_mem_ofString h, ?_⟩
  rw [ReadOutcome.text] at h
  split_ifs at h
  · exact hplain ou gpo h
  · exact absurd h List.not_mem_nil

/-- The DNs stay plain. -/
theorem edit_plain (hrt : rt.DecodesUtf8) (hchange : KeepsGpos tables removed writes change)
    (hplain : s.Plain tables rt) : (s.edit tables rt outcomes ou change).1.Plain tables rt := by
  intro ou' gpo hgpo
  obtain ⟨hsame, -⟩ | ⟨hnew, -⟩ := @edit_cases tables rt outcomes s ou change
  · rw [links_congr (congrFun hsame ou')] at hgpo
    exact hplain ou' gpo hgpo
  · by_cases hou : ou' = ou
    · subst hou
      have hgpos := hchange.plain _ (fun gpo => mem_keys_ofString tables _ gpo) fun gpo =>
        @mem_links_read tables rt outcomes s ou' gpo hplain
      rw [links_of_stored hrt (by rw [hnew, Function.update_self]; rfl) hgpos] at hgpo
      exact (hgpos gpo hgpo).2
    · rw [links_congr (s := s) (by rw [hnew, Function.update_of_ne hou])] at hgpo
      exact hplain ou' gpo hgpo

/-- A safe edit keeps the links. -/
theorem edit_keeps (hrt : rt.DecodesUtf8) (hchange : KeepsGpos tables removed writes change)
    (hplain : s.Plain tables rt) (hsafe : s.EditsSafely outcomes ou writes) :
    s.KeepsLinks tables rt removed (s.edit tables rt outcomes ou change).1 := by
  intro ou' gpo hgpo hremoved
  obtain ⟨hsame, -⟩ | ⟨hnew, hreplaced⟩ := @edit_cases tables rt outcomes s ou change
  · rwa [links_congr (congrFun hsame ou')]
  · by_cases hou : ou' = ou
    · subst hou
      obtain ⟨new, happend, hiff⟩ := @edit_replaced tables rt outcomes s ou' change _ _ hchange
      -- the edit is safe, so the links have been read
      have hread : outcomes.read s.reads = .value :=
        hiff.2 hsafe _ (List.append_cancel_left (happend.symm.trans hreplaced) ▸
          List.mem_cons_self)
      have hgpos := hchange.plain _ (fun gpo => mem_keys_ofString tables _ gpo) fun gpo =>
        @mem_links_read tables rt outcomes s ou' gpo hplain
      rw [links_of_stored hrt (by rw [hnew, Function.update_self]; rfl) hgpos]
      refine hchange.kept _ (fun gpo => mem_keys_ofString tables _ gpo) gpo ?_ hremoved
      rw [hread, ReadOutcome.text, if_pos rfl]
      exact hgpo
    · rwa [links_congr (s := s) (by rw [hnew, Function.update_of_ne hou])]

end

/-! ## The operations -/

section
variable (tables : CaseTables) (rt : Runtime) (outcomes : RequestOutcomes)

/-- The servers on which the links of units are edited, one after another. -/
def LinkServer.addLinks (policyList : List QString) (s : LinkServer) (ouList : List String) :
    LinkServer :=
  ouList.foldl (fun s ou => (s.edit tables rt outcomes ou (·.addAll tables policyList)).1) s

/-- Policies are added safely to each unit, in the state that those before it leave. -/
def LinkServer.AddsSafely (policyList : List QString) : LinkServer → List String → Prop
  | _, [] => True
  | s, ou :: ouList =>
    s.EditsSafely outcomes ou (policyList ≠ []) ∧
      AddsSafely policyList (s.edit tables rt outcomes ou (·.addAll tables policyList)).1 ouList

end

/-- Links are kept, but for those to some policies, and none are replaced that could not be
    read. -/
structure LinkServer.LinksSurvive (tables : CaseTables) (rt : Runtime) (removed : List QString)
    (s s' : LinkServer) : Prop where
  kept : s.KeepsLinks tables rt removed s'
  read : ∃ new, s'.replaced = s.replaced ++ new ∧ ∀ entry ∈ new, entry.2 = .value

section
variable {tables : CaseTables} {rt : Runtime} {outcomes : RequestOutcomes} {s : LinkServer}
  {ou : String} {policies : List QString}

theorem keepsGpos_addAll (hpolicies : ∀ gpo ∈ policies, Gplink.PlainDn tables gpo) :
    KeepsGpos tables [] (policies ≠ []) (·.addAll tables policies) where
  toString_empty := by
    rw [not_not, Gplink.toString_eq_nil_iff, List.eq_nil_iff_forall_not_mem]
    simp only [@Gplink.mem_addAll tables .empty _ _ fun _ => Iff.rfl]
    simp [Gplink.empty, List.eq_nil_iff_forall_not_mem]
  kept gplink hkeys gpo hgpo _ := (Gplink.mem_addAll hkeys).2 (.inl hgpo)
  plain gplink hkeys hgplink gpo hgpo := by
    rcases (Gplink.mem_addAll hkeys).1 hgpo with hgpo | hgpo
    · exact hgplink gpo hgpo
    · obtain ⟨policy, hpolicy, rfl⟩ := List.mem_map.1 hgpo
      exact ⟨CaseTables.lower_lower _, (hpolicies policy hpolicy).lower⟩

theorem keepsGpos_removeAll :
    KeepsGpos tables policies False (·.removeAll tables policies) where
  toString_empty := by
    rw [iff_true_right not_false, Gplink.toString_eq_nil_iff, List.eq_nil_iff_forall_not_mem]
    intro gpo hgpo
    exact List.not_mem_nil ((@Gplink.mem_removeAll tables .empty _ _ fun _ => Iff.rfl).1 hgpo).1
  kept gplink hkeys gpo hgpo hremoved := (Gplink.mem_removeAll hkeys).2 ⟨hgpo, hremoved⟩
  plain gplink hkeys hgplink gpo hgpo := hgplink gpo ((Gplink.mem_removeAll hkeys).1 hgpo).1

end
section
variable {tables : CaseTables} {rt : Runtime} {outcomes : RequestOutcomes}
  {s s' s'' : LinkServer} {ou : String} {ouList : List String} {change : Gplink → Gplink}
  {policies removed : List QString} {writes : Prop} {console : LinkConsole LinkServer}

/-- What is stored and what has been replaced matters. -/
theorem linksSurvive_congr (hstored : s''.stored = s'.stored)
    (hreplaced : s''.replaced = s'.replaced) :
    s.LinksSurvive tables rt removed s'' ↔ s.LinksSurvive tables rt removed s' := by
  have hlinks : ∀ ou, s''.links tables rt ou = s'.links tables rt ou := fun ou =>
    links_congr (congrFun hstored ou)
  constructor
  · rintro ⟨hkept, hread⟩
    exact ⟨fun ou gpo hgpo hne => hlinks ou ▸ hkept ou gpo hgpo hne, hreplaced ▸ hread⟩
  · rintro ⟨hkept, hread⟩
    exact ⟨fun ou gpo hgpo hne => hlinks ou ▸ hkept ou gpo hgpo hne, hreplaced ▸ hread⟩

/-- The links survive an edit exactly when it is safe. -/
theorem linksSurvive_edit_iff (hrt : rt.DecodesUtf8)
    (hchange : KeepsGpos tables removed writes change) (hplain : s.Plain tables rt) :
    s.LinksSurvive tables rt removed (s.edit tables rt outcomes ou change).1 ↔
      s.EditsSafely outcomes ou writes := by
  obtain ⟨new, happend, hiff⟩ := @edit_replaced tables rt outcomes s ou change _ _ hchange
  constructor
  · rintro ⟨-, new', happend', hread⟩
    rw [List.append_cancel_left (happend'.symm.trans happend)] at hread
    exact hiff.1 hread
  · intro hsafe
    exact ⟨edit_keeps hrt hchange hplain hsafe, new, happend, hiff.2 hsafe⟩

/-- No links that could not be read are replaced exactly when policies are added safely. -/
theorem addLinks_replaced (hpolicies : ∀ gpo ∈ policies, Gplink.PlainDn tables gpo) :
    ∃ new, (s.addLinks tables rt outcomes policies ouList).replaced = s.replaced ++ new ∧
      ((∀ entry ∈ new, entry.2 = .value) ↔ s.AddsSafely tables rt outcomes policies ouList) := by
  induction ouList generalizing s with
  | nil => exact ⟨[], (List.append_nil _).symm, iff_of_true nofun trivial⟩
  | cons ou ouList ih =>
    obtain ⟨new, happend, hiff⟩ :=
      @edit_replaced tables rt outcomes s ou _ _ _ (keepsGpos_addAll hpolicies)
    obtain ⟨rest, happend', hiff'⟩ :=
      @ih (s.edit tables rt outcomes ou (·.addAll tables policies)).1
    refine ⟨new ++ rest, ?_, ?_⟩
    · rw [LinkServer.addLinks, List.foldl_cons, ← LinkServer.addLinks, happend', happend,
        List.append_assoc]
    · rw [List.forall_mem_append, hiff, hiff']
      rfl

theorem addLinks_keeps (hrt : rt.DecodesUtf8)
    (hpolicies : ∀ gpo ∈ policies, Gplink.PlainDn tables gpo) (hplain : s.Plain tables rt)
    (hsafe : s.AddsSafely tables rt outcomes policies ouList) :
    s.KeepsLinks tables rt [] (s.addLinks tables rt outcomes policies ouList) := by
  induction ouList generalizing s with
  | nil => exact fun _ gpo hgpo _ => hgpo
  | cons ou ouList ih =>
    have hchange := keepsGpos_addAll hpolicies
    intro ou' gpo hgpo hne
    exact ih (edit_plain hrt hchange hplain) hsafe.2 ou' gpo
      (edit_keeps hrt hchange hplain hsafe.1 ou' gpo hgpo hne) hne

/-- The links survive when policies are added to units exactly when it is safe for each of
    them. -/
theorem linksSurvive_addLinks_iff (hrt : rt.DecodesUtf8)
    (hpolicies : ∀ gpo ∈ policies, Gplink.PlainDn tables gpo) (hplain : s.Plain tables rt) :
    s.LinksSurvive tables rt [] (s.addLinks tables rt outcomes policies ouList) ↔
      s.AddsSafely tables rt outcomes policies ouList := by
  obtain ⟨new, happend, hiff⟩ :=
    @addLinks_replaced tables rt outcomes s ouList policies hpolicies
  constructor
  · rintro ⟨-, new', happend', hread⟩
    rw [List.append_cancel_left (happend'.symm.trans happend)] at hread
    exact hiff.1 hread
  · intro hsafe
    exact ⟨addLinks_keeps hrt hpolicies hplain hsafe, new, happend, hiff.2 hsafe⟩

/-! ## The console -/

/-- A refreshed widget leaves what is stored. -/
theorem updateWidget_stored :
    (console.updateWidget tables rt (linkLdap outcomes) ou).server.stored = console.server.stored ∧
    (console.updateWidget tables rt (linkLdap outcomes) ou).server.replaced =
      console.server.replaced := by
  rw [LinkConsole.updateWidget]
  split_ifs
  · exact ⟨rfl, rfl⟩
  · exact ⟨rfl, rfl⟩

theorem foldl_updateWidget_stored :
    (ouList.foldl (LinkConsole.updateWidget tables rt (linkLdap outcomes)) console).server.stored =
      console.server.stored ∧
    (ouList.foldl (LinkConsole.updateWidget tables rt (linkLdap outcomes))
      console).server.replaced = console.server.replaced := by
  induction ouList generalizing console with
  | nil => exact ⟨rfl, rfl⟩
  | cons ou ouList ih =>
    obtain ⟨hstored, hreplaced⟩ := @updateWidget_stored tables rt outcomes ou console
    exact ⟨ih.1.trans hstored, ih.2.trans hreplaced⟩

theorem policyAddLinksStep_eq (hrt : rt.DecodesUtf8) :
    policyAddLinksStep tables rt (linkLdap outcomes) policies console ou =
      { console with
        server := (console.server.edit tables rt outcomes ou (·.addAll tables policies)).1
        ouLinks := console.ouLinks.insert ou
          (console.server.editText tables rt outcomes ou (·.addAll tables policies)) } := by
  rw [policyAddLinksStep, LinkServer.edit, LinkServer.editText]
  dsimp only [LinkConsole.setGplink]
  rw [gplinkString_linkLdap, adSearch_linkLdap, replaceGplink_linkLdap hrt]

theorem foldl_policyAddLinksStep_server (hrt : rt.DecodesUtf8) :
    (ouList.foldl (policyAddLinksStep tables rt (linkLdap outcomes) policies) console).server =
      console.server.addLinks tables rt outcomes policies ouList := by
  induction ouList generalizing console with
  | nil => rfl
  | cons ou ouList ih =>
    rw [List.foldl_cons, ih, policyAddLinksStep_eq hrt, LinkServer.addLinks,
      LinkServer.addLinks, List.foldl_cons]

/-- The console after the links of a unit have been edited, with what is kept of them if they
    could be written. -/
def LinkConsole.edit (tables : CaseTables) (rt : Runtime) (outcomes : RequestOutcomes)
    (console : LinkConsole LinkServer) (ou : String) (change : Gplink → Gplink) :
    LinkConsole LinkServer :=
  let (s, success) := console.server.edit tables rt outcomes ou change
  if success then
    { console with server := s }.setGplink ou
      (console.server.editText tables rt outcomes ou change)
  else { console with server := s }

theorem edit_server : (console.edit tables rt outcomes ou change).server =
    (console.server.edit tables rt outcomes ou change).1 := by
  rw [LinkConsole.edit]
  dsimp only
  split_ifs <;> rfl

theorem consolePolicyRemoveLink_eq (hrt : rt.DecodesUtf8) :
    consolePolicyRemoveLink tables rt (linkLdap outcomes) ou policies console =
      console.edit tables rt outcomes ou (·.removeAll tables policies) := by
  rw [consolePolicyRemoveLink, LinkConsole.edit, LinkServer.edit, LinkServer.editText]
  dsimp only [adSearchObject]
  rw [gplinkString_linkLdap, adSearch_linkLdap, replaceGplink_linkLdap hrt]

theorem linkGpoToOu_eq (hrt : rt.DecodesUtf8) :
    linkGpoToOu tables rt (linkLdap outcomes) ou policies console =
      if (console.server.edit tables rt outcomes ou (·.addAll tables policies)).2 then
        (console.edit tables rt outcomes ou (·.addAll tables policies)).updateWidget tables rt
          (linkLdap outcomes) console.scopeOu
      else console.edit tables rt outcomes ou (·.addAll tables policies) := by
  rw [linkGpoToOu, LinkConsole.edit, LinkServer.edit, LinkServer.editText]
  dsimp only [adSearchObject]
  rw [gplinkString_linkLdap, adSearch_linkLdap, replaceGplink_linkLdap hrt]
  cases hsuccess : ((console.server.read outcomes).replace outcomes ou _).2
  · rfl
  · rfl

theorem linkGpoToOu_stored (hrt : rt.DecodesUtf8) :
    (linkGpoToOu tables rt (linkLdap outcomes) ou policies console).server.stored =
      (console.server.edit tables rt outcomes ou (·.addAll tables policies)).1.stored ∧
    (linkGpoToOu tables rt (linkLdap outcomes) ou policies console).server.replaced =
      (console.server.edit tables rt outcomes ou (·.addAll tables policies)).1.replaced := by
  rw [linkGpoToOu_eq hrt, ← edit_server]
  split_ifs
  · exact updateWidget_stored
  · exact ⟨rfl, rfl⟩

end

/-- The links survive when policies are linked to units, from the list of policies or from a
    unit, and when links are removed, exactly when for each unit the links are read, or the
    write is refused, or there is nothing to write and nothing found to replace. -/
theorem linksSurvive_iff (tables : CaseTables) (rt : Runtime) (outcomes : RequestOutcomes)
    (console : LinkConsole LinkServer) (wasFetched : String → Bool)
    (policies dnList : List QString) (ou : String) (ouList : List String) (hrt : rt.DecodesUtf8)
    (hplain : console.server.Plain tables rt)
    (hpolicies : ∀ gpo ∈ policies, Gplink.PlainDn tables gpo) :
    (console.server.LinksSurvive tables rt []
        (policyAddLinks tables rt (linkLdap outcomes) wasFetched policies ouList console).server ↔
      console.server.AddsSafely tables rt outcomes policies ouList) ∧
    (console.server.LinksSurvive tables rt dnList
        (consolePolicyRemoveLink tables rt (linkLdap outcomes) ou dnList console).server ↔
      console.server.EditsSafely outcomes ou False) ∧
    (console.server.LinksSurvive tables rt []
        (linkGpoToOu tables rt (linkLdap outcomes) ou policies console).server ↔
      console.server.EditsSafely outcomes ou (policies ≠ [])) := by
  refine ⟨?_, ?_, ?_⟩
  · rw [policyAddLinks, linksSurvive_congr foldl_updateWidget_stored.1 foldl_updateWidget_stored.2,
      foldl_policyAddLinksStep_server hrt]
    exact linksSurvive_addLinks_iff hrt hpolicies hplain
  · rw [consolePolicyRemoveLink_eq hrt, edit_server]
    exact linksSurvive_edit_iff hrt keepsGpos_removeAll hplain
  · rw [linksSurvive_congr (linkGpoToOu_stored hrt).1 (linkGpoToOu_stored hrt).2]
    exact linksSurvive_edit_iff hrt (keepsGpos_addAll hpolicies) hplain
/-! ## A link is lost -/

/-- A unit has a link to a policy. -/
def oneLink : LinkConsole LinkServer where
  server :=
    { stored := fun ou => if ou = "OU=a" then
        textValues "[LDAP://CN={31B2},CN=Policies,DC=ALT;0]".toList else []
      reads := 0
      writes := 0
      beforeLast := .value
      last := .value
      requests := []
      replaced := [] }
  ouLinks := []
  widgetOu := ""
  widgetGplink := .empty
  scopeOu := ""

/-- All requests but one read come out well. -/
def readsBut (failed : Option ℕ) : RequestOutcomes where
  read n := if failed = some n then .failure else .value
  accepts _ := true

theorem links_oneLink {ou : String} : oneLink.server.links .ascii zeroRuntime ou =
    if ou = "OU=a" then ["cn={31b2},cn=policies,dc=alt".toList] else [] := by
  have hstored : oneLink.server.stored ou = if ou = "OU=a" then
      textValues "[LDAP://CN={31B2},CN=Policies,DC=ALT;0]".toList else [] := rfl
  rw [LinkServer.links, LinkServer.gplinkString, hstored]
  split_ifs
  · rw [headD_textValues decodesUtf8_zeroRuntime]
    decide
  · rfl

theorem plain_oneLink : oneLink.server.Plain .ascii zeroRuntime := by
  intro ou gpo hgpo
  rw [links_oneLink] at hgpo
  split_ifs at hgpo
  · rw [List.mem_singleton.1 hgpo]
    exact ⟨forall_mem_of_all (by decide), by decide, by decide, by decide⟩
  · exact absurd hgpo List.not_mem_nil

/-- Another policy is linked to the unit, and the link is kept. -/
theorem linksSurvive_iff_another :
    oneLink.server.LinksSurvive .ascii zeroRuntime []
      (linkGpoToOu .ascii zeroRuntime (linkLdap (readsBut none)) "OU=a"
        ["CN={6AC1},CN=Policies,DC=alt".toList] oneLink).server :=
  (linksSurvive_iff .ascii zeroRuntime (readsBut none) oneLink (fun _ => false)
    ["CN={6AC1},CN=Policies,DC=alt".toList] [] "OU=a" [] decodesUtf8_zeroRuntime plain_oneLink
    fun gpo hgpo => List.mem_singleton.1 hgpo ▸
      ⟨forall_mem_of_all (by decide), by decide, by decide, by decide⟩).2.2.2
    (.inl rfl)

/-- The links of the unit cannot be read when another policy is linked to it, and the link is
    lost. -/
theorem not_linksSurvive :
    ¬oneLink.server.KeepsLinks .ascii zeroRuntime []
      (linkGpoToOu .ascii zeroRuntime (linkLdap (readsBut (some 0))) "OU=a"
        ["CN={6AC1},CN=Policies,DC=alt".toList] oneLink).server := by
  let gpo := "CN={6AC1},CN=Policies,DC=alt".toList
  have hplain : Gplink.PlainDn .ascii (CaseTables.ascii.lower gpo) :=
    ⟨forall_mem_of_all (by decide), by decide, by decide,
      by decide⟩
  have hstored : (linkGpoToOu .ascii zeroRuntime (linkLdap (readsBut (some 0))) "OU=a" [gpo]
      oneLink).server.stored "OU=a" =
      textValues ((Gplink.empty.addAll .ascii [gpo]).toString .ascii) := by
    rw [(linkGpoToOu_stored decodesUtf8_zeroRuntime).1]
    exact edit_failedRead (by decide) rfl (by decide)
  intro h
  have hold := h "OU=a" "cn={31b2},cn=policies,dc=alt".toList
    (by rw [links_oneLink]; exact List.mem_singleton_self _) List.not_mem_nil
  rw [links_of_stored decodesUtf8_zeroRuntime hstored] at hold
  · exact absurd hold (by decide)
  · intro gpo' hgpo'
    have hlower : gpo' = CaseTables.ascii.lower gpo := List.mem_singleton.1 hgpo'
    rw [hlower]
    exact ⟨CaseTables.lower_lower _, hplain⟩
end Admc
