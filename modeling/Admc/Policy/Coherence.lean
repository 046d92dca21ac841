import Admc.Policy.FailedReads

/-!
# Links that are kept in the console

The links of a unit are held by the directory, by `GPLinkManager` and by the widget that
shows them. An operation that does not read them afresh writes what it holds.

`requestsRight_run`: in every run in which the reads succeed, each request replaces links by
what is asked for of the current ones, if at each step the writes that are not checked are
accepted, and the links of the unit that is shown are changed by the widget or shown afresh.
-/

namespace Admc

/-- The edit that a modification makes. -/
def LinkModification.edit : LinkModification → QString → GplinkEdit
  | .remove, gpo => .remove gpo
  | .moveUp, gpo => .moveUp gpo
  | .moveDown, gpo => .moveDown gpo

/-! ## The same links -/

/-- The same links, in the same order, with the same options. -/
structure Gplink.Same (gplink gplink' : Gplink) : Prop where
  gpoList : gplink.gpoList = gplink'.gpoList
  keys : ∀ gpo, gpo ∈ gplink.options.keys ↔ gpo ∈ gplink.gpoList
  keys' : ∀ gpo, gpo ∈ gplink'.options.keys ↔ gpo ∈ gplink'.gpoList
  value : ∀ gpo, gplink.options.value gpo 0 = gplink'.options.value gpo 0

namespace Gplink

section
variable {tables : CaseTables} {gplink gplink' : Gplink}

theorem same_ofString (text : QString) : (ofString tables text).Same (ofString tables text) :=
  ⟨rfl, mem_keys_ofString tables text, mem_keys_ofString tables text, fun _ => rfl⟩

/-- The same links are written alike. -/
theorem Same.toString (h : gplink.Same gplink') :
    gplink.toString tables = gplink'.toString tables := by
  rw [Gplink.toString, Gplink.toString, ← h.gpoList]
  refine congrArg List.flatten (List.map_congr_left fun gpo _ => ?_)
  rw [h.value gpo]

theorem Same.contains (h : gplink.Same gplink') (gpo : QString) :
    gplink.contains tables (tables.lower gpo) = gplink'.contains tables (tables.lower gpo) := by
  rw [Bool.eq_iff_iff, contains_lower, contains_lower, h.keys, h.keys', h.gpoList]

/-- Edits of the same links give the same links. -/
theorem Same.edit (h : gplink.Same gplink') (e : GplinkEdit) :
    (gplink.edit tables e).Same (gplink'.edit tables e) where
  gpoList := by
    cases e <;> simp only [Gplink.edit, Gplink.add, Gplink.remove, Gplink.moveUp,
      Gplink.moveDown, Gplink.move, Gplink.setOption, h.contains, h.gpoList] <;> split_ifs <;>
      simp only [h.gpoList]
  keys := mem_keys_edit h.keys e
  keys' := mem_keys_edit h.keys' e
  value gpo' := by
    cases e with
    | add gpo =>
      simp only [Gplink.edit, Gplink.add, h.contains]
      split_ifs
      · exact h.value gpo'
      · rw [QHash.value_insert, QHash.value_insert, h.value]
    | remove gpo =>
      simp only [Gplink.edit, Gplink.remove, h.contains]
      split_ifs
      swap
      · exact h.value gpo'
      · by_cases heq : gpo' = tables.lower gpo
        · rw [QHash.value_of_not_mem_keys, QHash.value_of_not_mem_keys]
          · exact fun hmem => (QHash.mem_keys_remove.1 hmem).1 heq
          · exact fun hmem => (QHash.mem_keys_remove.1 hmem).1 heq
        · rw [QHash.value_remove heq, QHash.value_remove heq, h.value]
    | moveUp gpo => rw [Gplink.edit, Gplink.edit, moveUp_options, moveUp_options, h.value]
    | moveDown gpo => rw [Gplink.edit, Gplink.edit, moveDown_options, moveDown_options, h.value]
    | move fromOrder toOrder =>
      rw [Gplink.edit, Gplink.edit, move_options, move_options, h.value]
    | setOption gpo option value =>
      simp only [Gplink.edit, Gplink.setOption, h.contains]
      split_ifs
      · rw [QHash.value_insert, QHash.value_insert, h.value, h.value]
      · exact h.value gpo'

theorem Same.run (h : gplink.Same gplink') (edits : List GplinkEdit) :
    (gplink.run tables edits).Same (gplink'.run tables edits) := by
  induction edits generalizing gplink gplink' with
  | nil => exact h
  | cons e edits ih => exact ih (h.edit e)

theorem run_setOption {gpo : QString} {option : GplinkOption} {value : Bool} :
    gplink.run tables [.setOption gpo option value] = gplink.setOption tables gpo option value :=
  rfl

theorem modifyAll_eq_run {modification : LinkModification} {policies : List QString} :
    gplink.modifyAll tables modification policies =
      gplink.run tables (policies.map modification.edit) := by
  rw [modifyAll, Gplink.run, List.foldl_map]
  cases modification <;> rfl

/-- Links to policies with plain DNs are the same when they are written and read. -/
theorem same_ofString_toString
    (hkeys : ∀ gpo, gpo ∈ gplink.options.keys ↔ gpo ∈ gplink.gpoList)
    (hgpos : ∀ gpo ∈ gplink.gpoList, tables.lower gpo = gpo ∧ PlainDn tables gpo) :
    gplink.Same (ofString tables (gplink.toString tables)) := by
  obtain ⟨hlist, hvalue⟩ := ofString_toString (fun gpo h => (hgpos gpo h).1) fun gpo h =>
    (hgpos gpo h).2
  refine ⟨hlist.symm, hkeys, mem_keys_ofString tables _, fun gpo => ?_⟩
  by_cases hgpo : gpo ∈ gplink.gpoList
  · exact (hvalue gpo hgpo).symm
  · rw [QHash.value_of_not_mem_keys (mt (hkeys gpo).1 hgpo),
      QHash.value_of_not_mem_keys (mt (mem_keys_ofString tables _ gpo).1 (hlist ▸ hgpo))]

/-- Edits keep the DNs plain, if those that are added are. -/
theorem plain_run {edits : List GplinkEdit} (hedits : ∀ gpo, .add gpo ∈ edits → PlainDn tables gpo)
    (hgpos : ∀ gpo ∈ gplink.gpoList, tables.lower gpo = gpo ∧ PlainDn tables gpo) :
    ∀ gpo ∈ (gplink.run tables edits).gpoList, tables.lower gpo = gpo ∧ PlainDn tables gpo := by
  induction edits generalizing gplink with
  | nil => exact hgpos
  | cons e edits ih =>
    refine ih (fun gpo hmem => hedits gpo (List.mem_cons_of_mem _ hmem)) fun gpo hmem => ?_
    obtain hmem | ⟨gpo', rfl, rfl⟩ := mem_edit hmem
    · exact hgpos gpo hmem
    · exact ⟨CaseTables.lower_lower _, (hedits gpo' List.mem_cons_self).lower⟩

end

end Gplink

/-! ## Operations -/

/-- The operations on links, and the selection of a unit, or of another item, in the scope
    tree. -/
inductive LinkOp
  | addLinks (wasFetched : String → Bool) (policyList : List QString) (ouList : List String)
  | removeLink (ou : String) (dnList : List QString)
  | linkGpo (ou : String) (gpoList : List QString)
  | changeOption (ou : String) (gpo : QString) (option : GplinkOption) (checked : Bool)
  | itemChanged (gpo : QString) (option : GplinkOption) (isChecked : Bool)
  | modify (modification : LinkModification) (selected : List QString)
  | selectScope (ou : String)

namespace LinkOp

/-- The effect of an operation. -/
def run {σ : Type} (tables : CaseTables) (rt : Runtime) (ldap : Ldap σ)
    (console : LinkConsole σ) : LinkOp → LinkConsole σ
  | addLinks wasFetched policyList ouList =>
    policyAddLinks tables rt ldap wasFetched policyList ouList console
  | removeLink ou dnList => consolePolicyRemoveLink tables rt ldap ou dnList console
  | linkGpo ou gpoList => linkGpoToOu tables rt ldap ou gpoList console
  | changeOption ou gpo option checked =>
    onChangeGplinkOptionAction tables ldap ou gpo option checked console
  | itemChanged gpo option isChecked => onItemChanged tables ldap gpo option isChecked console
  | modify modification selected => modifyGplink tables ldap modification selected console
  | selectScope ou => console.selectScope tables rt ldap ou

/-- The edits of the links of a unit that an operation is asked for. -/
def edits : LinkOp → List GplinkEdit
  | addLinks _ policyList _ => policyList.map .add
  | removeLink _ dnList => dnList.map .remove
  | linkGpo _ gpoList => gpoList.map .add
  | changeOption _ gpo option checked => [.setOption gpo option checked]
  | itemChanged gpo option isChecked => [.setOption gpo option isChecked]
  | modify modification selected => selected.map modification.edit
  | selectScope _ => []

/-- Where the kept links stay those of the directory. Writes that are not checked are accepted,
    and of the units that are refreshed only the one that is shown is; it is, when its links
    change; and they are not changed behind the widget that shows them. -/
def Meets (tables : CaseTables) (outcomes : RequestOutcomes) (console : LinkConsole LinkServer) :
    LinkOp → Prop
  | addLinks wasFetched policyList ouList =>
    (∀ gpo ∈ policyList, Gplink.PlainDn tables gpo) ∧
    (∀ n, console.server.writes ≤ n → n < console.server.writes + ouList.length →
      outcomes.accepts n = true) ∧
    (console.scopeOu ≠ "" → (∀ ou ∈ ouList, wasFetched ou = true → ou = console.scopeOu) ∧
      (console.scopeOu ∈ ouList → wasFetched console.scopeOu = true))
  | removeLink ou _ => console.scopeOu ≠ ou
  | linkGpo _ gpoList => ∀ gpo ∈ gpoList, Gplink.PlainDn tables gpo
  | changeOption ou _ _ _ => console.scopeOu ≠ ou
  | itemChanged _ _ _ => console.scopeOu ≠ ""
  | modify _ _ => console.scopeOu ≠ "" ∧ outcomes.accepts console.server.writes = true
  | selectScope _ => True

end LinkOp

/-! ## Requests -/

/-- The text of the links that the object has. -/
def LinkRequest.text (request : LinkRequest) (rt : Runtime) : QString :=
  ((request.current.map rt.fromUtf8).headD "").toList

/-- The request replaces the links that the object has by those with the edits made. -/
def LinkRequest.Right (tables : CaseTables) (rt : Runtime) (edits : List GplinkEdit)
    (request : LinkRequest) : Prop :=
  request.values = textValues
    (((Gplink.ofString tables (request.text rt)).run tables edits).toString tables)

/-- The requests between two states are right. -/
def RequestsRight (tables : CaseTables) (rt : Runtime) (edits : List GplinkEdit)
    (s s' : LinkServer) : Prop :=
  ∃ new, s'.requests = s.requests ++ new ∧ ∀ request ∈ new, request.Right tables rt edits

/-- At each step of a run. -/
def EveryStep {σ α : Type} (step : σ → α → σ) (P : σ → α → Prop) : σ → List α → Prop
  | _, [] => True
  | s, op :: ops => P s op ∧ EveryStep step P (step s op) ops

section
variable {tables : CaseTables} {rt : Runtime} {outcomes : RequestOutcomes}
  {s s' s'' : LinkServer} {ou : String} {edits : List GplinkEdit} {text : QString}

theorem RequestsRight.refl : RequestsRight tables rt edits s s :=
  ⟨[], (List.append_nil _).symm, nofun⟩

theorem RequestsRight.trans (h : RequestsRight tables rt edits s s')
    (h' : RequestsRight tables rt edits s' s'') : RequestsRight tables rt edits s s'' := by
  obtain ⟨new, happend, hright⟩ := h
  obtain ⟨new', happend', hright'⟩ := h'
  refine ⟨new ++ new', by rw [happend', happend, List.append_assoc], ?_⟩
  exact List.forall_mem_append.2 ⟨hright, hright'⟩

/-- What is stored after links have been written, when reads succeed. -/
theorem replace_stored (hreads : ∀ n, outcomes.read n = .value) :
    (s.replace outcomes ou text).1.stored =
      if (s.replace outcomes ou text).2 then Function.update s.stored ou (textValues text)
      else s.stored := by
  rw [LinkServer.replace]
  by_cases hnothing : text = [] ∧ (outcomes.read s.reads ≠ .value ∨ s.stored ou = [])
  · -- there were no links, and there are none
    rw [if_pos hnothing]
    obtain ⟨rfl, hstored⟩ := hnothing
    have hnone : s.stored ou = textValues [] := hstored.resolve_left fun h => h (hreads _)
    exact (Function.update_eq_self_iff.2 hnone.symm).symm
  · rw [if_neg hnothing]
    cases haccepts : outcomes.accepts s.writes
    · rfl
    · rfl

theorem replace_requests (htext : text =
    ((Gplink.ofString tables (s.gplinkString rt ou)).run tables edits).toString tables) :
    RequestsRight tables rt edits s (s.replace outcomes ou text).1 := by
  rw [LinkServer.replace]
  split_ifs
  · exact .refl
  all_goals
    refine ⟨_, rfl, fun request hrequest => ?_⟩
    rw [List.mem_singleton.1 hrequest, LinkRequest.Right, htext]
    rfl

/-- A write that is not refused succeeds. -/
theorem replace_accepted (haccepts : outcomes.accepts s.writes = true) :
    (s.replace outcomes ou text).2 = true := by
  rw [LinkServer.replace]
  rw [if_pos haccepts]
  split_ifs <;> rfl

theorem replace_refused (hrefused : outcomes.accepts s.writes = false) :
    (s.replace outcomes ou text).1.stored = s.stored := by
  rw [LinkServer.replace]
  split_ifs with hnothing haccepts
  · rfl
  · cases hrefused.symm.trans haccepts
  · rfl

/-- Links that are not empty are always requested. -/
theorem replace_requests_eq (hne : text ≠ []) : (s.replace outcomes ou text).1.requests =
    s.requests ++ [⟨ou, s.stored ou, textValues text⟩] := by
  rw [LinkServer.replace]
  rw [if_neg fun h => hne h.1]
  split_ifs <;> rfl

theorem replace_writes : s.writes ≤ (s.replace outcomes ou text).1.writes ∧
    (s.replace outcomes ou text).1.writes ≤ s.writes + 1 := by
  rw [LinkServer.replace]
  split_ifs
  · exact ⟨le_rfl, Nat.le_succ _⟩
  all_goals exact ⟨Nat.le_succ _, le_rfl⟩

end

/-! ## Coherence -/

/-- The links that are kept of units are those of the directory, with plain DNs. -/
structure Kept (tables : CaseTables) (rt : Runtime) (s : LinkServer)
    (ouLinks : QHash String QString) : Prop where
  same : ∀ ou, (Gplink.ofString tables (ouLinks.value ou [])).Same
    (Gplink.ofString tables (s.gplinkString rt ou))
  plain : s.Plain tables rt

/-- The widget has the links of a unit. -/
structure Shows (tables : CaseTables) (rt : Runtime) (s : LinkServer) (widgetOu : String)
    (widgetGplink : Gplink) (ou : String) : Prop where
  ou_eq : widgetOu = ou
  same : widgetGplink.Same (Gplink.ofString tables (s.gplinkString rt ou))

/-- The links that are kept are those of the directory, and so are those that the widget
    shows for the selected unit. -/
structure LinkConsole.Coherent (tables : CaseTables) (rt : Runtime)
    (console : LinkConsole LinkServer) : Prop where
  kept : Kept tables rt console.server console.ouLinks
  shows : console.scopeOu ≠ "" →
    Shows tables rt console.server console.widgetOu console.widgetGplink console.scopeOu

section
variable {tables : CaseTables} {rt : Runtime} {outcomes : RequestOutcomes}
  {s s' : LinkServer} {ou : String} {edits : List GplinkEdit} {gplink : Gplink}
  {ouLinks : QHash String QString} {console : LinkConsole LinkServer}

theorem gplinkString_congr (h : s'.stored ou = s.stored ou) :
    s'.gplinkString rt ou = s.gplinkString rt ou := by
  rw [LinkServer.gplinkString, h]
  rfl

theorem gplinkString_of_stored (hrt : rt.DecodesUtf8) {text : QString}
    (h : s.stored ou = textValues text) : s.gplinkString rt ou = text := by
  rw [LinkServer.gplinkString, h, headD_textValues hrt]

theorem Kept.congr (h : Kept tables rt s ouLinks) (hstored : s'.stored = s.stored) :
    Kept tables rt s' ouLinks where
  same ou := by
    rw [gplinkString_congr (congrFun hstored ou)]
    exact h.same ou
  plain ou gpo hgpo := by
    rw [links_congr (congrFun hstored ou)] at hgpo
    exact h.plain ou gpo hgpo

/-- Links that are written are kept. -/
theorem Kept.write (hrt : rt.DecodesUtf8) (h : Kept tables rt s ouLinks)
    (hgpos : ∀ gpo ∈ gplink.gpoList, tables.lower gpo = gpo ∧ Gplink.PlainDn tables gpo)
    (hstored : s'.stored = Function.update s.stored ou (textValues (gplink.toString tables))) :
    Kept tables rt s' (ouLinks.insert ou (gplink.toString tables)) where
  same ou' := by
    rw [QHash.value_insert]
    split_ifs with hou
    · rw [hou, gplinkString_of_stored hrt (by rw [hstored, Function.update_self])]
      exact Gplink.same_ofString _
    · rw [gplinkString_congr (s := s) (by rw [hstored, Function.update_of_ne hou])]
      exact h.same ou'
  plain ou' gpo hgpo := by
    by_cases hou : ou' = ou
    · rw [hou, links_of_stored hrt (by rw [hstored, Function.update_self]) hgpos] at hgpo
      exact (hgpos gpo hgpo).2
    · rw [links_congr (s := s) (by rw [hstored, Function.update_of_ne hou])] at hgpo
      exact h.plain ou' gpo hgpo

theorem Kept.gpos (h : Kept tables rt s ouLinks)
    (hedits : ∀ gpo, .add gpo ∈ edits → Gplink.PlainDn tables gpo)
    (hsame : gplink.Same (Gplink.ofString tables (s.gplinkString rt ou))) :
    ∀ gpo ∈ (gplink.run tables edits).gpoList,
      tables.lower gpo = gpo ∧ Gplink.PlainDn tables gpo := by
  refine Gplink.plain_run hedits fun gpo hgpo => ?_
  rw [hsame.gpoList] at hgpo
  exact ⟨Gplink.lower_of_mem_ofString hgpo, h.plain ou gpo hgpo⟩

/-- The widget still has the links of a unit when those of another one have been written. -/
theorem Shows.congr {widgetOu scopeOu : String} {widgetGplink : Gplink}
    (h : Shows tables rt s widgetOu widgetGplink scopeOu)
    (hstored : s'.stored scopeOu = s.stored scopeOu) :
    Shows tables rt s' widgetOu widgetGplink scopeOu where
  ou_eq := h.ou_eq
  same := by
    rw [gplinkString_congr hstored]
    exact h.same

end
/-! ## What one step keeps -/

section
variable {tables : CaseTables} {rt : Runtime} {outcomes : RequestOutcomes}
  {s : LinkServer} {ou : String} {edits : List GplinkEdit} {gplink : Gplink}
  {ouLinks : QHash String QString} {console : LinkConsole LinkServer}

theorem editText_eq (hreads : ∀ n, outcomes.read n = .value) {change : Gplink → Gplink} :
    s.editText tables rt outcomes ou change =
      (change (Gplink.ofString tables (s.gplinkString rt ou))).toString tables := by
  rw [LinkServer.editText, ReadOutcome.text, if_pos (hreads _)]

theorem edit_requests (hreads : ∀ n, outcomes.read n = .value) :
    RequestsRight tables rt edits s (s.edit tables rt outcomes ou (·.run tables edits)).1 :=
  replace_requests (s := s.read outcomes) (editText_eq hreads)

/-- The links of a unit are edited and written. -/
theorem Kept.replace (hrt : rt.DecodesUtf8) (hreads : ∀ n, outcomes.read n = .value)
    (h : Kept tables rt s ouLinks)
    (hedits : ∀ gpo, .add gpo ∈ edits → Gplink.PlainDn tables gpo)
    (hsame : gplink.Same (Gplink.ofString tables (s.gplinkString rt ou))) :
    Kept tables rt (s.replace outcomes ou ((gplink.run tables edits).toString tables)).1
      (if (s.replace outcomes ou ((gplink.run tables edits).toString tables)).2 then
        ouLinks.insert ou ((gplink.run tables edits).toString tables)
      else ouLinks) := by
  have hstored := @replace_stored outcomes s ou ((gplink.run tables edits).toString tables) hreads
  split_ifs with hsuccess
  · rw [if_pos hsuccess] at hstored
    exact h.write hrt (h.gpos hedits hsame) hstored
  · rw [if_neg hsuccess] at hstored
    exact h.congr hstored

theorem replace_stored_of_ne {text : QString} {ou' : String} (hou : ou' ≠ ou) :
    (s.replace outcomes ou text).1.stored ou' = s.stored ou' := by
  rw [LinkServer.replace]
  split_ifs
  · rfl
  · exact Function.update_of_ne hou _ _
  · rfl

/-- Links that are read afresh, edited and written. -/
theorem Kept.edit (hrt : rt.DecodesUtf8) (hreads : ∀ n, outcomes.read n = .value)
    (h : Kept tables rt s ouLinks)
    (hedits : ∀ gpo, .add gpo ∈ edits → Gplink.PlainDn tables gpo) :
    Kept tables rt (s.edit tables rt outcomes ou (·.run tables edits)).1
      (if (s.edit tables rt outcomes ou (·.run tables edits)).2 then
        ouLinks.insert ou (s.editText tables rt outcomes ou (·.run tables edits))
      else ouLinks) := by
  rw [LinkServer.edit, editText_eq hreads]
  have hread : Kept tables rt (s.read outcomes) ouLinks := h.congr rfl
  exact hread.replace hrt hreads hedits (Gplink.same_ofString _)

/-- The links of a unit that is not shown are edited. -/
theorem LinkConsole.Coherent.edit (hrt : rt.DecodesUtf8)
    (hreads : ∀ n, outcomes.read n = .value) (h : console.Coherent tables rt)
    (hedits : ∀ gpo, .add gpo ∈ edits → Gplink.PlainDn tables gpo) (hou : console.scopeOu ≠ ou) :
    (console.edit tables rt outcomes ou (·.run tables edits)).Coherent tables rt := by
  have hkept := @Kept.edit tables rt outcomes _ ou _ _ hrt hreads h.kept hedits
  rw [LinkConsole.edit]
  dsimp only
  split_ifs at hkept ⊢
  · exact ⟨hkept, fun hscope => (h.shows hscope).congr (replace_stored_of_ne hou)⟩
  · exact ⟨hkept, fun hscope => (h.shows hscope).congr (replace_stored_of_ne hou)⟩

/-! ### The widget -/

theorem updateWidget_frame :
    (console.updateWidget tables rt (linkLdap outcomes) ou).ouLinks = console.ouLinks ∧
    (console.updateWidget tables rt (linkLdap outcomes) ou).scopeOu = console.scopeOu ∧
    (console.updateWidget tables rt (linkLdap outcomes) ou).server.requests =
      console.server.requests := by
  rw [LinkConsole.updateWidget]
  split_ifs
  · exact ⟨rfl, rfl, rfl⟩
  · exact ⟨rfl, rfl, rfl⟩

/-- A unit is shown as the directory has it. -/
theorem updateWidget_shows (hreads : ∀ n, outcomes.read n = .value) (hou : ou ≠ "") :
    Shows tables rt (console.updateWidget tables rt (linkLdap outcomes) ou).server
      (console.updateWidget tables rt (linkLdap outcomes) ou).widgetOu
      (console.updateWidget tables rt (linkLdap outcomes) ou).widgetGplink ou := by
  rw [LinkConsole.updateWidget, if_neg hou]
  dsimp only [adSearchObject]
  rw [gplinkString_linkLdap, adSearch_linkLdap, ReadOutcome.text, if_pos (hreads _)]
  exact ⟨rfl, Gplink.same_ofString _⟩

theorem Kept.updateWidget (h : Kept tables rt console.server console.ouLinks) :
    Kept tables rt (console.updateWidget tables rt (linkLdap outcomes) ou).server
      (console.updateWidget tables rt (linkLdap outcomes) ou).ouLinks := by
  rw [updateWidget_frame.1]
  exact h.congr updateWidget_stored.1

/-- The widget shows the selected unit afresh. -/
theorem coherent_updateWidget (hreads : ∀ n, outcomes.read n = .value)
    (h : Kept tables rt console.server console.ouLinks) (hou : console.scopeOu = ou) :
    (console.updateWidget tables rt (linkLdap outcomes) ou).Coherent tables rt := by
  refine ⟨h.updateWidget, fun hscope => ?_⟩
  rw [updateWidget_frame.2.1, hou] at hscope ⊢
  exact updateWidget_shows hreads hscope

end
/-! ### Adding links to units -/

/-- Links have been added to units, and the widget has not been refreshed yet. -/
structure LinksAdded (tables : CaseTables) (rt : Runtime) (policies : List QString)
    (ouList : List String) (console console' : LinkConsole LinkServer) : Prop where
  kept : Kept tables rt console'.server console'.ouLinks
  requests : RequestsRight tables rt (policies.map .add) console.server console'.server
  scopeOu_eq : console'.scopeOu = console.scopeOu
  widgetOu_eq : console'.widgetOu = console.widgetOu
  widgetGplink_eq : console'.widgetGplink = console.widgetGplink
  others : ∀ ou ∉ ouList, console'.server.stored ou = console.server.stored ou

section
variable {tables : CaseTables} {rt : Runtime} {outcomes : RequestOutcomes} {ou : String}
  {ouList : List String} {policies : List QString} {console : LinkConsole LinkServer}

theorem Gplink.addAll_eq : (fun gplink : Gplink => gplink.addAll tables policies) =
    fun gplink => gplink.run tables (policies.map .add) :=
  funext fun _ => addAll_eq_run

theorem Gplink.removeAll_eq : (fun gplink : Gplink => gplink.removeAll tables policies) =
    fun gplink => gplink.run tables (policies.map .remove) :=
  funext fun _ => removeAll_eq_run

theorem plain_of_mem_map_add (hpolicies : ∀ gpo ∈ policies, Gplink.PlainDn tables gpo) :
    ∀ gpo, GplinkEdit.add gpo ∈ policies.map GplinkEdit.add → Gplink.PlainDn tables gpo := by
  intro gpo hgpo
  obtain ⟨gpo', hgpo', heq⟩ := List.mem_map.1 hgpo
  rw [← GplinkEdit.add.inj heq]
  exact hpolicies gpo' hgpo'

/-- What is kept is what has been written, if no write is refused. -/
theorem linksAdded_foldl (hrt : rt.DecodesUtf8) (hreads : ∀ n, outcomes.read n = .value)
    (hpolicies : ∀ gpo ∈ policies, Gplink.PlainDn tables gpo)
    (haccepts : ∀ n, console.server.writes ≤ n → n < console.server.writes + ouList.length →
      outcomes.accepts n = true)
    (h : Kept tables rt console.server console.ouLinks) :
    LinksAdded tables rt policies ouList console
      (ouList.foldl (policyAddLinksStep tables rt (linkLdap outcomes) policies) console) := by
  induction ouList generalizing console with
  | nil => exact ⟨h, .refl, rfl, rfl, rfl, fun _ _ => rfl⟩
  | cons ou ouList ih =>
    have hfirst : outcomes.accepts console.server.writes = true :=
      haccepts _ le_rfl (by rw [List.length_cons]; omega)
    have hsuccess : (console.server.edit tables rt outcomes ou
        (·.run tables (policies.map .add))).2 = true := replace_accepted hfirst
    have hkept := @Kept.edit tables rt outcomes _ ou _ _ hrt hreads h
      (plain_of_mem_map_add hpolicies)
    rw [if_pos hsuccess] at hkept
    have hwrites : console.server.writes ≤ (console.server.edit tables rt outcomes ou
          (·.run tables (policies.map .add))).1.writes ∧
        (console.server.edit tables rt outcomes ou
          (·.run tables (policies.map .add))).1.writes ≤ console.server.writes + 1 :=
      replace_writes (s := console.server.read outcomes)
    rw [List.foldl_cons, policyAddLinksStep_eq hrt, Gplink.addAll_eq]
    have hrest := @ih { console with
      server := (console.server.edit tables rt outcomes ou
        (·.run tables (policies.map .add))).1
      ouLinks := console.ouLinks.insert ou (console.server.editText tables rt outcomes ou
        (·.run tables (policies.map .add))) } (fun n hle hlt => by
          dsimp only at hle hlt
          refine haccepts n (hwrites.1.trans hle) ?_
          rw [List.length_cons]
          omega) hkept
    refine ⟨hrest.kept, (edit_requests hreads).trans hrest.requests, hrest.scopeOu_eq,
      hrest.widgetOu_eq, hrest.widgetGplink_eq, fun ou' hou' => ?_⟩
    rw [List.mem_cons, not_or] at hou'
    rw [hrest.others ou' hou'.2]
    exact replace_stored_of_ne hou'.1

/-- The selected unit is refreshed, once or several times. -/
theorem coherent_foldl_updateWidget (hreads : ∀ n, outcomes.read n = .value)
    (h : Kept tables rt console.server console.ouLinks)
    (hscope : ∀ ou ∈ ouList, ou = console.scopeOu)
    (hnil : ouList = [] → console.Coherent tables rt) :
    (ouList.foldl (LinkConsole.updateWidget tables rt (linkLdap outcomes)) console).Coherent
      tables rt := by
  induction ouList generalizing console with
  | nil => exact hnil rfl
  | cons ou ouList ih =>
    rw [List.forall_mem_cons] at hscope
    refine ih h.updateWidget ?_ fun _ => coherent_updateWidget hreads h hscope.1.symm
    rw [updateWidget_frame.2.1]
    exact hscope.2

theorem foldl_updateWidget_frame :
    (ouList.foldl (LinkConsole.updateWidget tables rt (linkLdap outcomes)) console).ouLinks =
      console.ouLinks ∧
    (ouList.foldl (LinkConsole.updateWidget tables rt (linkLdap outcomes)) console).scopeOu =
      console.scopeOu ∧
    (ouList.foldl (LinkConsole.updateWidget tables rt
      (linkLdap outcomes)) console).server.requests = console.server.requests := by
  induction ouList generalizing console with
  | nil => exact ⟨rfl, rfl, rfl⟩
  | cons ou ouList ih =>
    obtain ⟨hlinks, hscope, hrequests⟩ := @updateWidget_frame tables rt outcomes ou console
    exact ⟨ih.1.trans hlinks, ih.2.1.trans hscope, ih.2.2.trans hrequests⟩

end
/-! ## Runs -/

/-- What is kept is that of the directory, and the requests have been right. -/
structure StepKeeps (tables : CaseTables) (rt : Runtime) (edits : List GplinkEdit)
    (console console' : LinkConsole LinkServer) : Prop where
  coherent : console'.Coherent tables rt
  requests : RequestsRight tables rt edits console.server console'.server

section
variable {tables : CaseTables} {rt : Runtime} {outcomes : RequestOutcomes} {ou : String}
  {edits : List GplinkEdit} {policies : List QString} {console : LinkConsole LinkServer}

theorem keeps_addLinks {wasFetched : String → Bool} {ouList : List String}
    (hrt : rt.DecodesUtf8) (hreads : ∀ n, outcomes.read n = .value)
    (h : console.Coherent tables rt)
    (hmeets : (LinkOp.addLinks wasFetched policies ouList).Meets tables outcomes console) :
    StepKeeps tables rt (policies.map .add) console
      (policyAddLinks tables rt (linkLdap outcomes) wasFetched policies ouList console) := by
  obtain ⟨hpolicies, haccepts, hscope⟩ := hmeets
  have hadded := linksAdded_foldl hrt hreads hpolicies haccepts h.kept
  obtain ⟨hlinks, hrefreshed, hrequests⟩ := @foldl_updateWidget_frame tables rt outcomes
    (ouList.filter wasFetched)
    (ouList.foldl (policyAddLinksStep tables rt (linkLdap outcomes) policies) console)
  constructor
  · by_cases hnone : console.scopeOu = ""
    · -- no unit is shown, now or afterwards
      refine ⟨?_, fun hsome => absurd (hrefreshed.trans (hadded.scopeOu_eq.trans hnone)) hsome⟩
      rw [policyAddLinks, hlinks]
      exact hadded.kept.congr foldl_updateWidget_stored.1
    · obtain ⟨hfetched, hshown⟩ := hscope hnone
      refine coherent_foldl_updateWidget hreads hadded.kept (fun ou hou => ?_) fun hnil => ?_
      · rw [List.mem_filter] at hou
        rw [hadded.scopeOu_eq]
        exact hfetched ou hou.1 hou.2
      · -- the unit that is shown is not among those that get links
        have hother : console.scopeOu ∉ ouList := fun hmem =>
          List.filter_eq_nil_iff.1 hnil _ hmem (hshown hmem)
        refine ⟨hadded.kept, fun _ => ?_⟩
        rw [hadded.scopeOu_eq, hadded.widgetOu_eq, hadded.widgetGplink_eq]
        exact (h.shows hnone).congr (hadded.others _ hother)
  · obtain ⟨new, happend, hright⟩ := hadded.requests
    exact ⟨new, hrequests.trans happend, hright⟩

theorem keeps_edit (hrt : rt.DecodesUtf8) (hreads : ∀ n, outcomes.read n = .value)
    (h : console.Coherent tables rt)
    (hedits : ∀ gpo, .add gpo ∈ edits → Gplink.PlainDn tables gpo) (hou : console.scopeOu ≠ ou) :
    StepKeeps tables rt edits console
      (console.edit tables rt outcomes ou (·.run tables edits)) := by
  refine ⟨h.edit hrt hreads hedits hou, ?_⟩
  rw [edit_server]
  exact edit_requests hreads

theorem keeps_linkGpo (hrt : rt.DecodesUtf8) (hreads : ∀ n, outcomes.read n = .value)
    (h : console.Coherent tables rt) (hpolicies : ∀ gpo ∈ policies, Gplink.PlainDn tables gpo) :
    StepKeeps tables rt (policies.map .add) console
      (linkGpoToOu tables rt (linkLdap outcomes) ou policies console) := by
  have hkept := @Kept.edit tables rt outcomes _ ou _ _ hrt hreads h.kept
    (plain_of_mem_map_add hpolicies)
  have hrequests := @edit_requests tables rt outcomes console.server ou (policies.map .add) hreads
  rw [linkGpoToOu_eq hrt, Gplink.addAll_eq]
  rw [LinkConsole.edit]
  dsimp only
  split_ifs at hkept ⊢ with hsuccess
  · refine ⟨coherent_updateWidget hreads hkept rfl, ?_⟩
    obtain ⟨new, happend, hright⟩ := hrequests
    exact ⟨new, updateWidget_frame.2.2.trans happend, hright⟩
  · -- the write is refused, and nothing has changed
    refine ⟨⟨hkept, fun hscope => (h.shows hscope).congr ?_⟩, hrequests⟩
    have hstored := @replace_stored outcomes (console.server.read outcomes) ou
      (console.server.editText tables rt outcomes ou (·.run tables (policies.map .add))) hreads
    exact congrFun (hstored.trans (if_neg hsuccess)) _

/-- The option of a link is changed from what is kept. -/
theorem keeps_changeOption {gpo : QString} {option : GplinkOption} {checked : Bool}
    (hrt : rt.DecodesUtf8) (hreads : ∀ n, outcomes.read n = .value)
    (h : console.Coherent tables rt) (hou : console.scopeOu ≠ ou) :
    StepKeeps tables rt [.setOption gpo option checked] console
      (onChangeGplinkOptionAction tables (linkLdap outcomes) ou gpo option checked console) := by
  have hsame := h.kept.same ou
  have hkept := @Kept.replace tables rt outcomes _ ou [.setOption gpo option checked] _ _ hrt
    hreads h.kept (by simp) hsame
  have hrequests := @replace_requests tables rt outcomes console.server ou
    [.setOption gpo option checked] _ (hsame.run _).toString
  rw [Gplink.run_setOption] at hkept hrequests
  rw [onChangeGplinkOptionAction]
  dsimp only
  rw [replaceGplink_linkLdap hrt]
  split_ifs with hsuccess
  · rw [if_pos hsuccess] at hkept
    exact ⟨⟨hkept, fun hscope => (h.shows hscope).congr (replace_stored_of_ne hou)⟩, hrequests⟩
  · rw [if_neg hsuccess] at hkept
    exact ⟨⟨hkept, fun hscope => (h.shows hscope).congr (replace_stored_of_ne hou)⟩, hrequests⟩

/-- The widget edits the links of the unit that it shows, and writes them. -/
theorem keeps_shown (hrt : rt.DecodesUtf8) (hreads : ∀ n, outcomes.read n = .value)
    (h : console.Coherent tables rt) (hscope : console.scopeOu ≠ "")
    (hedits : ∀ gpo, .add gpo ∈ edits → Gplink.PlainDn tables gpo) :
    let gplink := console.widgetGplink.run tables edits
    let (s, success) := console.server.replace outcomes console.widgetOu (gplink.toString tables)
    StepKeeps tables rt edits console
      (if success then
        { console with server := s, widgetGplink := gplink }.setGplink console.scopeOu
          (gplink.toString tables)
      else { console with server := s }) := by
  intro gplink
  obtain ⟨hou, hsame⟩ := h.shows hscope
  have hkept := h.kept.replace hrt hreads hedits hsame
  have hrequests := @replace_requests tables rt outcomes console.server console.scopeOu edits _
    (hsame.run edits).toString
  have hstored := @replace_stored outcomes console.server console.scopeOu
    (gplink.toString tables) hreads
  dsimp only
  rw [hou]
  split_ifs with hsuccess
  · rw [if_pos hsuccess] at hkept hstored
    refine ⟨⟨hkept, fun _ => ⟨rfl, ?_⟩⟩, hrequests⟩
    -- what has been written is read again
    dsimp only [LinkConsole.setGplink]
    rw [gplinkString_of_stored hrt (by rw [hstored, Function.update_self])]
    exact Gplink.same_ofString_toString (Gplink.mem_keys_run hsame.keys edits)
      (h.kept.gpos hedits hsame)
  · rw [if_neg hsuccess] at hkept hstored
    have hshows := (h.shows hscope).congr (congrFun hstored console.scopeOu)
    exact ⟨⟨hkept, fun _ => ⟨rfl, hshows.same⟩⟩, hrequests⟩

theorem keeps_itemChanged {gpo : QString} {option : GplinkOption} {isChecked : Bool}
    (hrt : rt.DecodesUtf8) (hreads : ∀ n, outcomes.read n = .value)
    (h : console.Coherent tables rt) (hscope : console.scopeOu ≠ "") :
    StepKeeps tables rt [.setOption gpo option isChecked] console
      (onItemChanged tables (linkLdap outcomes) gpo option isChecked console) := by
  have hshown := @keeps_shown tables rt outcomes [.setOption gpo option isChecked] console hrt
    hreads h hscope (by simp)
  rw [Gplink.run_setOption] at hshown
  rw [onItemChanged]
  dsimp only at hshown ⊢
  rw [replaceGplink_linkLdap hrt]
  cases hsuccess : (console.server.replace outcomes console.widgetOu
    ((console.widgetGplink.setOption tables gpo option isChecked).toString tables)).2
  · rw [if_neg (by rw [hsuccess]; decide)] at hshown
    exact hshown
  · rw [if_pos hsuccess] at hshown
    exact hshown

theorem keeps_modify {modification : LinkModification}
    (hrt : rt.DecodesUtf8) (hreads : ∀ n, outcomes.read n = .value)
    (h : console.Coherent tables rt) (hscope : console.scopeOu ≠ "")
    (haccepts : outcomes.accepts console.server.writes = true) :
    StepKeeps tables rt (policies.map modification.edit) console
      (modifyGplink tables (linkLdap outcomes) modification policies console) := by
  have hshown := @keeps_shown tables rt outcomes (policies.map modification.edit) console hrt
    hreads h hscope fun gpo hgpo => by
      -- a modification adds no links
      obtain ⟨gpo', -, heq⟩ := List.mem_map.1 hgpo
      cases modification <;> exact absurd heq nofun
  rw [← Gplink.modifyAll_eq_run] at hshown
  rw [modifyGplink]
  dsimp only at hshown ⊢
  rw [replaceGplink_linkLdap hrt]
  rw [if_pos (replace_accepted haccepts)] at hshown
  exact hshown

theorem keeps_step (hrt : rt.DecodesUtf8) (hreads : ∀ n, outcomes.read n = .value)
    (h : console.Coherent tables rt) {op : LinkOp} (hmeets : op.Meets tables outcomes console) :
    StepKeeps tables rt op.edits console (op.run tables rt (linkLdap outcomes) console) := by
  cases op with
  | addLinks wasFetched policyList ouList => exact keeps_addLinks hrt hreads h hmeets
  | removeLink ou dnList =>
    rw [LinkOp.run, consolePolicyRemoveLink_eq hrt, Gplink.removeAll_eq]
    exact keeps_edit hrt hreads h (by simp [LinkOp.edits]) hmeets
  | linkGpo ou gpoList => exact keeps_linkGpo hrt hreads h hmeets
  | changeOption ou gpo option checked => exact keeps_changeOption hrt hreads h hmeets
  | itemChanged gpo option isChecked => exact keeps_itemChanged hrt hreads h hmeets
  | modify modification selected => exact keeps_modify hrt hreads h hmeets.1 hmeets.2
  | selectScope ou =>
    refine ⟨coherent_updateWidget hreads (h.kept.congr rfl) rfl, [], ?_, nofun⟩
    rw [List.append_nil]
    exact updateWidget_frame.2.2

end

/-- In every run whose steps meet the condition, each request replaces the links of a unit by
    what is asked for of the current ones. -/
theorem requestsRight_run (tables : CaseTables) (rt : Runtime) (outcomes : RequestOutcomes)
    (console : LinkConsole LinkServer) (ops : List LinkOp) (hrt : rt.DecodesUtf8)
    (hreads : ∀ n, outcomes.read n = .value) (h : console.Coherent tables rt)
    (hmeets : EveryStep (LinkOp.run tables rt (linkLdap outcomes))
      (fun console op => op.Meets tables outcomes console) console ops) :
    EveryStep (LinkOp.run tables rt (linkLdap outcomes))
      (fun console op => RequestsRight tables rt op.edits console.server
        (op.run tables rt (linkLdap outcomes) console).server) console ops := by
  induction ops generalizing console with
  | nil => trivial
  | cons op ops ih =>
    have hstep := keeps_step hrt hreads h hmeets.1
    exact ⟨hstep.requests, ih _ hstep.coherent hmeets.2⟩

/-! ### A link that was refused -/

/-- The link of the unit is kept, as after the links have been read. -/
def keptLink : LinkConsole LinkServer :=
  { oneLink with ouLinks := [("OU=a", "[LDAP://CN={31B2},CN=Policies,DC=ALT;0]".toList)] }

/-- All requests but one write come out well. -/
def writesBut (refused : Option ℕ) : RequestOutcomes where
  read _ := .value
  accepts n := refused ≠ some n

theorem gplinkString_oneLink {ou : String} : oneLink.server.gplinkString zeroRuntime ou =
    if ou = "OU=a" then "[LDAP://CN={31B2},CN=Policies,DC=ALT;0]".toList else [] := by
  have hstored : oneLink.server.stored ou = if ou = "OU=a" then
      textValues "[LDAP://CN={31B2},CN=Policies,DC=ALT;0]".toList else [] := rfl
  rw [LinkServer.gplinkString, hstored]
  split_ifs
  · exact headD_textValues decodesUtf8_zeroRuntime _
  · rfl

theorem coherent_keptLink : keptLink.Coherent .ascii zeroRuntime where
  kept :=
    { same := fun ou => by
        have hvalue : keptLink.ouLinks.value ou [] =
            oneLink.server.gplinkString zeroRuntime ou := by
          rw [gplinkString_oneLink]
          exact QHash.value_cons
        rw [hvalue]
        exact Gplink.same_ofString _
      plain := plain_oneLink }
  shows h := absurd rfl h

/-- The unit is selected, and its link is enforced. -/
theorem requestsRight_run_enforced :
    EveryStep (LinkOp.run .ascii zeroRuntime (linkLdap (writesBut none)))
      (fun console op => RequestsRight .ascii zeroRuntime op.edits console.server
        (op.run .ascii zeroRuntime (linkLdap (writesBut none)) console).server) keptLink
      [.selectScope "OU=a",
        .itemChanged "cn={31b2},cn=policies,dc=alt".toList .enforced true] :=
  requestsRight_run .ascii zeroRuntime (writesBut none) keptLink _ decodesUtf8_zeroRuntime
    (fun _ => rfl) coherent_keptLink
    ⟨trivial, fun h => absurd (updateWidget_frame.2.1.symm.trans h) (by decide), trivial⟩

/-- A text that is requested rightly is that of the links with the edits made. -/
theorem text_of_requestsRight {tables : CaseTables} {rt : Runtime} {outcomes : RequestOutcomes}
    {s : LinkServer} {ou : String} {edits : List GplinkEdit} {text : QString}
    (hrt : rt.DecodesUtf8) (h : RequestsRight tables rt edits s (s.replace outcomes ou text).1)
    (hne : text ≠ []) : text =
      ((Gplink.ofString tables (s.gplinkString rt ou)).run tables edits).toString tables := by
  obtain ⟨new, happend, hright⟩ := h
  rw [replace_requests_eq hne] at happend
  have hvalues : textValues text = textValues
      (((Gplink.ofString tables (s.gplinkString rt ou)).run tables edits).toString tables) :=
    hright ⟨ou, s.stored ou, textValues text⟩
      (List.append_cancel_left happend ▸ List.mem_singleton_self _)
  rw [← headD_textValues hrt text, hvalues, headD_textValues hrt]

theorem onChangeGplinkOptionAction_server {tables : CaseTables} {rt : Runtime}
    {outcomes : RequestOutcomes} {console : LinkConsole LinkServer} {ou : String} {gpo : QString}
    {option : GplinkOption} {checked : Bool} (hrt : rt.DecodesUtf8) :
    (onChangeGplinkOptionAction tables (linkLdap outcomes) ou gpo option checked console).server =
      (console.server.replace outcomes ou
        (((Gplink.ofString tables (console.ouLinks.value ou [])).setOption tables gpo option
          checked).toString tables)).1 := by
  rw [onChangeGplinkOptionAction]
  dsimp only
  rw [replaceGplink_linkLdap hrt]
  split_ifs <;> rfl

/-- A policy is linked to the unit, which is refused; then the link that the unit has is
    enforced, and the refused one is written with it. -/
theorem not_requestsRight :
    ¬EveryStep (LinkOp.run .ascii zeroRuntime (linkLdap (writesBut (some 0))))
      (fun console op => RequestsRight .ascii zeroRuntime op.edits console.server
        (op.run .ascii zeroRuntime (linkLdap (writesBut (some 0))) console).server) keptLink
      [.addLinks (fun _ => false) ["CN={6AC1},CN=Policies,DC=alt".toList] ["OU=a"],
        .changeOption "OU=a" "cn={31b2},cn=policies,dc=alt".toList .enforced true] := by
  let stored := "[LDAP://CN={31B2},CN=Policies,DC=ALT;0]".toList
  let refused := ((Gplink.ofString .ascii stored).addAll .ascii
    ["CN={6AC1},CN=Policies,DC=alt".toList]).toString .ascii
  let written := ((Gplink.ofString .ascii refused).setOption .ascii
    "cn={31b2},cn=policies,dc=alt".toList .enforced true).toString .ascii
  rintro ⟨-, hsecond, -⟩
  -- the console after the first operation
  let console := LinkOp.run .ascii zeroRuntime (linkLdap (writesBut (some 0))) keptLink
    (.addLinks (fun _ => false) ["CN={6AC1},CN=Policies,DC=alt".toList] ["OU=a"])
  have hconsole : console = _ := @policyAddLinksStep_eq .ascii zeroRuntime (writesBut (some 0))
    "OU=a" ["CN={6AC1},CN=Policies,DC=alt".toList] keptLink decodesUtf8_zeroRuntime
  have hstored : keptLink.server.gplinkString zeroRuntime "OU=a" = stored := gplinkString_oneLink
  have hkept : console.ouLinks.value "OU=a" [] = refused := by
    rw [hconsole, QHash.value_insert, if_pos rfl, editText_eq fun _ => rfl, hstored]
  have htext : console.server.gplinkString zeroRuntime "OU=a" = stored := by
    rw [hconsole, ← hstored]
    exact gplinkString_congr (congrFun (replace_refused (s := keptLink.server.read _) rfl) _)
  have hwritten : RequestsRight .ascii zeroRuntime
      [.setOption "cn={31b2},cn=policies,dc=alt".toList .enforced true] console.server
      (console.server.replace (writesBut (some 0)) "OU=a" written).1 := by
    have hserver := @onChangeGplinkOptionAction_server .ascii zeroRuntime (writesBut (some 0))
      console "OU=a" "cn={31b2},cn=policies,dc=alt".toList .enforced true decodesUtf8_zeroRuntime
    rw [hkept] at hserver
    exact hserver ▸ hsecond
  have htext' := text_of_requestsRight decodesUtf8_zeroRuntime hwritten (by decide)
  rw [htext] at htext'
  exact absurd htext' (by decide)

end Admc
