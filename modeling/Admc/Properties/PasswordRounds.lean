import Admc.Interface.Attribute
import Admc.Interface.Naming
import Admc.Lib.Run
import Admc.Properties.PasswordSettings

/-!
# Rounds of edits of a password settings object

A results widget keeps the object that it shows, writes the attributes of it that have been
edited, and reads it again. The name is written last, by renaming the object, and then the name is
taken for the DN: the object is not found, and the next round writes to an object without a DN.

* `attributesReplaced`: what writing some attributes leaves of the object;
* `roundOk_of_run`: as long as no round changes the name, each round writes to the object, and the
  widget keeps the object as it is.
-/

namespace Admc

/-- `class PSOResultsWidget`. -/
structure PSOResultsWidget where
  savedObject : AdObject
  psoEditWidget : PSOEditWidget
  editable : Bool

/-- The object with the values of an attribute replaced. -/
def AdObject.replaceValues (object : AdObject) (attr : String) (values : List QByteArray) :
    AdObject :=
  { object with
    attributesData :=
      if values.isEmpty then object.attributesData.remove attr
      else object.attributesData.insert attr values }

/-- A server that accepts every request, with a password settings object: what it stores of it,
    and the DNs that requests for changes have been sent to. -/
structure PsoServer (σ : Type) extends Ldap σ where
  connect : σ → σ × Bool
  rename : σ → RenameRequest → σ × LdapResult
  object : σ → AdObject
  addressed : σ → List String
  connected : ∀ s, (connect s).2 = true
  object_connect : ∀ s, object (connect s).1 = object s
  addressed_connect : ∀ s, addressed (connect s).1 = addressed s
  object_search : ∀ s request, object (search s request).1 = object s
  addressed_search : ∀ s request, addressed (search s request).1 = addressed s
  searchObject_all : ∀ s, (adSearchObject toLdap s (object s).dn [] false).2 = object s
  searchObject_attr : ∀ s attr,
    (adSearchObject toLdap s (object s).dn [attr] false).2.getValues attr =
      (object s).getValues attr
  addressed_modifyReplace : ∀ s dn attr values sdControl,
    addressed (modifyReplace s dn attr values sdControl).1 = addressed s ++ [dn]
  object_modifyReplace : ∀ s attr values sdControl,
    object (modifyReplace s (object s).dn attr values sdControl).1 =
      (object s).replaceValues attr values
  addressed_rename : ∀ s request,
    addressed (rename s request).1 = addressed s ++ [String.ofList request.dn]
  object_rename : ∀ s newRdn,
    (object (rename s ⟨(object s).dn.toList, newRdn, none⟩).1).dn =
      String.ofList (newRdn ++ ',' :: dnGetParent (object s).dn.toList)

/-- Between two states requests are sent to a DN, and no others. -/
def PsoServer.SentTo {σ : Type} (server : PsoServer σ) (dn : String) (s s' : σ) : Prop :=
  ∃ dns, server.addressed s' = server.addressed s ++ dns ∧ ∀ dn' ∈ dns, dn' = dn

namespace PSOResultsWidget

variable {σ : Type} (rt : Runtime) (server : PsoServer σ)

/-- `PSOResultsWidget::set_editable`. -/
def setEditable (w : PSOResultsWidget) (isEditable : Bool) : PSOResultsWidget :=
  { w with editable := isEditable }

/-- `PSOResultsWidget::update`, of an object. -/
def update (w : PSOResultsWidget) (pso : AdObject) : PSOResultsWidget :=
  { savedObject := pso, psoEditWidget := w.psoEditWidget.update rt pso, editable := false }

/-- `PSOResultsWidget::changed_attrs`. -/
def changedAttrs (w : PSOResultsWidget) : List String :=
  let newValues := w.psoEditWidget.psoSettingsValues
  newValues.keys.filter fun attr =>
    w.savedObject.getValues attr ≠ newValues.value attr []

/-- `PSOResultsWidget::on_edit`. -/
def onEdit (w : PSOResultsWidget) : PSOResultsWidget := w.setEditable true

/-- `PSOResultsWidget::on_cancel_edit`. -/
def onCancelEdit (w : PSOResultsWidget) : PSOResultsWidget :=
  { w with psoEditWidget := w.psoEditWidget.update rt w.savedObject }.setEditable false

/-- The loop of `on_apply` over the attributes that have changed. -/
def replaceAttributes (settingsValues : QHash String (List QByteArray)) (psoDn : String)
    (changedAttrList : List String) (s : σ) : σ :=
  changedAttrList.foldl (fun s attr =>
    if attr = "cn" then s
    else (attributeReplaceValues server.toLdap s psoDn attr (settingsValues.value attr []) false).1)
      s

/-- `PSOResultsWidget::on_apply`, given what the console makes of the signal
    `refresh_pso_subtree`. -/
def onApply (refreshPsoSubtree : σ → PSOResultsWidget → String → σ × PSOResultsWidget)
    (w : PSOResultsWidget) (s : σ) : σ × PSOResultsWidget :=
  if w.changedAttrs.isEmpty then (s, w.setEditable false)
  else
    let (s, isConnected) := server.connect s
    if !isConnected then (s, w.onCancelEdit rt)
    else
      let psoDn := w.savedObject.dn
      let changedAttrList := w.changedAttrs
      let settingsValues := w.psoEditWidget.psoSettingsValues
      let s := replaceAttributes server settingsValues psoDn changedAttrList s
      let (s, w, psoDn) :=
        if changedAttrList.contains "cn" then
          let newDn := (settingsValues.value "cn" []).headD []
          let newDnString := rt.fromUtf8 newDn
          if newDnString ≠ psoDn then
            let (s, _) := objectRename server.rename s psoDn.toList newDnString.toList
            let (s, w) := refreshPsoSubtree s w newDnString
            (s, w, newDnString)
          else (s, w, newDnString)
        else (s, w, psoDn)
      let (s, object) := adSearchObject server.toLdap s psoDn [] false
      (s, { w with savedObject := object }.setEditable false)

end PSOResultsWidget

/-! ## Rounds -/

/-- The widget, and the server. -/
structure PsoSession (σ : Type) where
  server : σ
  widget : PSOResultsWidget

/-- What happens in a round, in which the fields are edited first. -/
inductive PsoRound
  | apply (fields : PSOEditWidget)
  | cancel (fields : PSOEditWidget)

namespace PsoSession

section
variable {σ : Type} (rt : Runtime) (server : PsoServer σ)
  (refreshPsoSubtree : σ → PSOResultsWidget → String → σ × PSOResultsWidget)

/-- The widget with its fields edited. Whether it shows the settings of the domain is not up to
    the user. -/
def edited (session : PsoSession σ) (fields : PSOEditWidget) : PSOResultsWidget :=
  { session.widget.onEdit with
    psoEditWidget := { fields with isGlobal := session.widget.psoEditWidget.isGlobal } }

/-- A round. -/
def round (session : PsoSession σ) : PsoRound → PsoSession σ
  | .apply fields =>
    let (s, w) := (session.edited fields).onApply rt server refreshPsoSubtree session.server
    ⟨s, w⟩
  | .cancel fields => ⟨session.server, (session.edited fields).onCancelEdit rt⟩

/-- The widget has been given the object, which is a password settings object. -/
def Loaded (session : PsoSession σ) : Prop :=
  (server.object session.server).attributesData.contains attributePwdProperties = false ∧
    ∃ w : PSOResultsWidget, session.widget = w.update rt (server.object session.server)

/-- What a round is for: its requests are sent to the object, which gets the values of the fields,
    and the widget keeps the object as it is; or they are given up, and the fields show it. -/
structure RoundOk (before : PsoSession σ) (round : PsoRound) (after : PsoSession σ) : Prop where
  sent : server.SentTo (server.object before.server).dn before.server after.server
  saved : after.widget.savedObject = server.object after.server
  applied : ∀ fields, round = .apply fields →
    let settings := (before.edited fields).psoEditWidget.psoSettingsValues
    ∀ attr ∈ settings.keys,
      (server.object after.server).getValues attr = settings.value attr []
  cancelled : ∀ fields, round = .cancel fields →
    after.widget.psoEditWidget =
      (before.edited fields).psoEditWidget.update rt (server.object after.server)

/-- A round does not change the name. -/
def KeepsName (session : PsoSession σ) : PsoRound → Prop
  | .apply fields => session.widget.savedObject.getValues "cn" =
      [toUtf8 (String.ofList (trimmed fields.name.toList))]
  | .cancel _ => True

instance (session : PsoSession σ) (round : PsoRound) : Decidable (session.KeepsName round) :=
  match round with
  | .apply _ => inferInstanceAs (Decidable (_ = _))
  | .cancel _ => inferInstanceAs (Decidable True)

end

end PsoSession

/-! ## Writing attributes -/

section
variable {object : AdObject} {attr attr' : String} {values : List QByteArray}

theorem AdObject.getValues_replaceValues : (object.replaceValues attr values).getValues attr' =
    if attr' = attr then values else object.getValues attr' := by
  rw [AdObject.replaceValues, AdObject.getValues]
  by_cases hempty : values.isEmpty = true
  · simp only [hempty, if_true, QHash.value, QHash.lookup_remove]
    split_ifs with hattr
    · exact (List.isEmpty_iff.1 hempty).symm
    · rfl
  · simp only [hempty, Bool.false_eq_true, if_false, QHash.value_insert]
    rfl

theorem AdObject.contains_replaceValues (h : attr' ≠ attr) :
    (object.replaceValues attr values).attributesData.contains attr' =
      object.attributesData.contains attr' := by
  rw [Bool.eq_iff_iff, QHash.contains_iff, QHash.contains_iff, AdObject.replaceValues]
  by_cases hempty : values.isEmpty = true
  · simp only [hempty, if_true, QHash.mem_keys_remove, and_iff_right h]
  · simp only [hempty, Bool.false_eq_true, if_false, QHash.mem_keys_insert, or_iff_right h]

end

section
variable {σ : Type} {rt : Runtime} {server : PsoServer σ} {s s' s'' : σ} {attr dn : String}
  {values : List QByteArray} {attrs : List String} {settings : QHash String (List QByteArray)}

namespace PsoServer

theorem SentTo.refl (h : server.addressed s' = server.addressed s) : server.SentTo dn s s' :=
  ⟨[], h.trans (List.append_nil _).symm, List.forall_mem_nil _⟩

theorem SentTo.trans (h : server.SentTo dn s s') (h' : server.SentTo dn s' s'') :
    server.SentTo dn s s'' := by
  obtain ⟨dns, hdns, hall⟩ := h
  obtain ⟨dns', hdns', hall'⟩ := h'
  refine ⟨dns ++ dns', ?_, List.forall_mem_append.2 ⟨hall, hall'⟩⟩
  rw [hdns', hdns, List.append_assoc]

/-- Some attributes of the object have got values, by requests that have been sent to it. -/
structure AttributesReplaced (server : PsoServer σ) (settings : QHash String (List QByteArray))
    (attrs : List String) (s s' : σ) : Prop where
  dn : (server.object s').dn = (server.object s).dn
  sent : server.SentTo (server.object s).dn s s'
  values : ∀ attr, (server.object s').getValues attr =
    if attr ∈ attrs then settings.value attr [] else (server.object s).getValues attr
  contains : ∀ attr ∉ attrs, (server.object s').attributesData.contains attr =
    (server.object s).attributesData.contains attr

/-- One attribute. If it neither has nor gets a value, no request is sent. -/
theorem attributeReplaced : server.AttributesReplaced settings [attr] s
    (attributeReplaceValues server.toLdap s (server.object s).dn attr (settings.value attr [])
      false).1 := by
  have hobject : server.object (adSearchObject server.toLdap s (server.object s).dn [attr]
      false).1 = server.object s := server.object_search s _
  have haddressed : server.addressed (adSearchObject server.toLdap s (server.object s).dn [attr]
      false).1 = server.addressed s := server.addressed_search s _
  have hread := server.searchObject_attr s attr
  rw [attributeReplaceValues]
  simp only [hread, Bool.false_and, Bool.false_eq_true, if_false, Bool.and_eq_true,
    List.isEmpty_iff]
  split_ifs with hempty
  · refine ⟨congrArg _ hobject, .refl haddressed, fun attr' => ?_, fun attr' _ => ?_⟩
    · rw [hobject]
      split_ifs with hattr
      · rw [List.mem_singleton.1 hattr, hempty.1, hempty.2]
      · rfl
    · rw [hobject]
  · have hmodified := server.object_modifyReplace (adSearchObject server.toLdap s
      (server.object s).dn [attr] false).1 attr (settings.value attr []) false
    rw [hobject] at hmodified
    refine ⟨(congrArg AdObject.dn hmodified).trans rfl,
      ⟨[(server.object s).dn], ?_, List.forall_mem_singleton.2 rfl⟩, fun attr' => ?_,
      fun attr' hattr => ?_⟩
    · rw [server.addressed_modifyReplace, haddressed]
    · rw [hmodified, AdObject.getValues_replaceValues]
      simp only [List.mem_singleton]
      split_ifs with hattr
      · rw [hattr]
      · rfl
    · rw [hmodified, AdObject.contains_replaceValues fun heq => hattr (List.mem_singleton.2 heq)]

theorem AttributesReplaced.refl (hobject : server.object s' = server.object s)
    (haddressed : server.addressed s' = server.addressed s) :
    server.AttributesReplaced settings [] s s' :=
  ⟨congrArg _ hobject, .refl haddressed, fun attr => congrArg (AdObject.getValues · attr) hobject,
    fun attr _ => congrArg (fun object => object.attributesData.contains attr) hobject⟩

/-- First some attributes, and then others. -/
theorem AttributesReplaced.trans {attrs' : List String}
    (h : server.AttributesReplaced settings attrs s s')
    (h' : server.AttributesReplaced settings attrs' s' s'') :
    server.AttributesReplaced settings (attrs ++ attrs') s s'' where
  dn := h'.dn.trans h.dn
  sent := h.sent.trans (h.dn ▸ h'.sent)
  values attr := by
    rw [h'.values, h.values]
    simp only [List.mem_append]
    split_ifs with hattr' hattr hattr <;> first | rfl | tauto
  contains attr hattr := by
    rw [List.mem_append, not_or] at hattr
    rw [h'.contains attr hattr.2, h.contains attr hattr.1]

/-- All attributes that have changed, if the name has not. -/
theorem attributesReplaced (hcn : "cn" ∉ attrs) (hdn : dn = (server.object s).dn) :
    server.AttributesReplaced settings attrs s
      (PSOResultsWidget.replaceAttributes server settings dn attrs s) := by
  induction attrs generalizing s with
  | nil => exact .refl rfl rfl
  | cons attr attrs ih =>
    rw [List.mem_cons, not_or] at hcn
    have hfirst := @attributeReplaced σ server s attr settings
    rw [← hdn] at hfirst
    rw [PSOResultsWidget.replaceAttributes, List.foldl_cons, if_neg (Ne.symm hcn.1)]
    exact hfirst.trans (ih hcn.2 (hdn.trans hfirst.dn.symm))

end PsoServer

/-! ## Keeping the name -/

namespace PSOEditWidget

variable {w : PSOEditWidget}

/-- The settings of a settings object have its name. -/
theorem psoSettingsValues_cn (h : w.isGlobal = false) : w.psoSettingsValues.value "cn" [] =
    [toUtf8 (String.ofList (trimmed w.name.toList))] := by
  rw [psoSettingsValues]
  simp +decide only [h, if_false, QHash.value_insert]
  rfl

theorem attributePwdProperties_not_mem (h : w.isGlobal = false) :
    attributePwdProperties ∉ w.psoSettingsValues.keys := by
  rw [psoSettingsValues]
  simp +decide only [h, if_false, QHash.mem_keys_insert]

end PSOEditWidget

namespace PSOResultsWidget

variable {w : PSOResultsWidget}
  {refreshPsoSubtree : σ → PSOResultsWidget → String → σ × PSOResultsWidget}

/-- What is applied if the name has not changed. -/
theorem onApply_of_keepsName (hw : w.psoEditWidget.isGlobal = false)
    (hsaved : w.savedObject = server.object s)
    (hname : w.savedObject.getValues "cn" =
      [toUtf8 (String.ofList (trimmed w.psoEditWidget.name.toList))]) :
    (w.onApply rt server refreshPsoSubtree s).2.savedObject =
        server.object (w.onApply rt server refreshPsoSubtree s).1 ∧
      (w.onApply rt server refreshPsoSubtree s).2.psoEditWidget = w.psoEditWidget ∧
      server.AttributesReplaced w.psoEditWidget.psoSettingsValues w.changedAttrs s
        (w.onApply rt server refreshPsoSubtree s).1 := by
  have hcn : "cn" ∉ w.changedAttrs := by
    rw [changedAttrs, List.mem_filter]
    rintro ⟨-, hne⟩
    exact of_decide_eq_true hne (hname.trans (PSOEditWidget.psoSettingsValues_cn hw).symm)
  rw [onApply]
  split_ifs with hempty
  · rw [List.isEmpty_iff.1 hempty]
    exact ⟨hsaved, rfl, .refl rfl rfl⟩
  · have hcontains : w.changedAttrs.contains "cn" = false := by simpa using hcn
    have hconnect : server.AttributesReplaced w.psoEditWidget.psoSettingsValues [] s
        (server.connect s).1 := .refl (server.object_connect s) (server.addressed_connect s)
    have hreplaced := @PsoServer.attributesReplaced σ server (server.connect s).1 w.savedObject.dn
      w.changedAttrs w.psoEditWidget.psoSettingsValues hcn
      (by rw [server.object_connect, hsaved])
    have hdn := hreplaced.dn.trans (hconnect.dn.trans (congrArg AdObject.dn hsaved.symm))
    simp only [server.connected, hcontains, Bool.not_true, Bool.false_eq_true, if_false]
    generalize PSOResultsWidget.replaceAttributes server w.psoEditWidget.psoSettingsValues
      w.savedObject.dn w.changedAttrs (server.connect s).1 = written at hreplaced hdn
    -- the object is read again, under its DN
    have hread := server.searchObject_all written
    have hobject := server.object_search written ⟨w.savedObject.dn, .object, "", [], false⟩
    have hsearch : server.AttributesReplaced w.psoEditWidget.psoSettingsValues [] written
        (adSearchObject server.toLdap written w.savedObject.dn [] false).1 :=
      .refl hobject (server.addressed_search written _)
    rw [hdn] at hread
    refine ⟨hread.trans hobject.symm, rfl, ?_⟩
    have hall := hconnect.trans (hreplaced.trans hsearch)
    rwa [List.nil_append, List.append_nil] at hall

end PSOResultsWidget

/-! ## Runs -/

namespace PsoSession

variable {refreshPsoSubtree : σ → PSOResultsWidget → String → σ × PSOResultsWidget}
  {session : PsoSession σ} {round : PsoRound}

/-- The widget keeps the object as it is, which is a password settings object. -/
structure Shows (server : PsoServer σ) (session : PsoSession σ) : Prop where
  saved : session.widget.savedObject = server.object session.server
  isGlobal : session.widget.psoEditWidget.isGlobal = false
  isPso : (server.object session.server).attributesData.contains attributePwdProperties = false

theorem Shows.of_loaded (h : session.Loaded rt server) : session.Shows server := by
  obtain ⟨hpso, w, hw⟩ := h
  refine ⟨congrArg PSOResultsWidget.savedObject hw, ?_, hpso⟩
  rw [hw]
  exact hpso

/-- A round that does not change the name. -/
theorem Shows.next (h : session.Shows server) (hname : session.KeepsName round) :
    (session.round rt server refreshPsoSubtree round).Shows server ∧
      RoundOk rt server session round (session.round rt server refreshPsoSubtree round) := by
  cases round with
  | cancel fields =>
    have hfields : ((session.edited fields).onCancelEdit rt).psoEditWidget =
        (session.edited fields).psoEditWidget.update rt (server.object session.server) := by
      rw [← h.saved]
      rfl
    refine ⟨⟨h.saved, ?_, h.isPso⟩, .refl rfl, h.saved, (fun _ h => nomatch h), ?_⟩
    · exact (congrArg PSOEditWidget.isGlobal hfields).trans h.isPso
    · rintro _ ⟨⟩
      exact hfields
  | apply fields =>
    have hglobal : (session.edited fields).psoEditWidget.isGlobal = false := h.isGlobal
    obtain ⟨hsaved, hfields, hreplaced⟩ := @PSOResultsWidget.onApply_of_keepsName σ rt server
      session.server (session.edited fields) refreshPsoSubtree hglobal h.saved hname
    refine ⟨⟨hsaved, (congrArg PSOEditWidget.isGlobal hfields).trans hglobal, ?_⟩,
      hreplaced.sent, hsaved, ?_, fun _ h => nomatch h⟩
    · refine (hreplaced.contains _ fun hmem => ?_).trans h.isPso
      exact PSOEditWidget.attributePwdProperties_not_mem hglobal (List.mem_of_mem_filter hmem)
    · rintro _ ⟨⟩ settings attr hattr
      refine (hreplaced.values attr).trans ?_
      split_ifs with hchanged
      · rfl
      · -- it had the value before
        rw [PSOResultsWidget.changedAttrs, List.mem_filter, not_and] at hchanged
        have hsame := hchanged hattr
        rw [decide_eq_true_eq, not_not] at hsame
        exact (congrArg (AdObject.getValues · attr) h.saved.symm).trans hsame

/-- In a run in which no round changes the name, each round writes to the object and nowhere
    else, and the widget keeps the object as it is. -/
theorem roundOk_of_run (rt : Runtime) (server : PsoServer σ)
    (refreshPsoSubtree : σ → PSOResultsWidget → String → σ × PSOResultsWidget)
    (h : Run (Loaded rt server) KeepsName (PsoSession.round rt server refreshPsoSubtree) session)
    (hname : session.KeepsName round) :
    RoundOk rt server session round (session.round rt server refreshPsoSubtree round) := by
  have hshows : session.Shows server := h.invariant (fun _ => .of_loaded)
    fun _ _ hshows hname => (hshows.next hname).1
  exact (hshows.next hname).2

end PsoSession

end

/-! ## A server -/

/-- A server that keeps an object, and the DNs that it has been sent. -/
def sampleServer : PsoServer (AdObject × List String) where
  search s request :=
    (s, if request.base = s.1.dn then
        [.page [(s.1.dn, if request.attributes = [] then s.1.attributesData
          else s.1.attributesData.filter (·.1 ∈ request.attributes))] false]
      else [.failure])
  createSdControl _ := .success
  createTreeDeleteControl _ := .success
  modifyReplace s dn attr values _ :=
    if dn = s.1.dn then ((s.1.replaceValues attr values, s.2 ++ [dn]), .success)
    else ((s.1, s.2 ++ [dn]), .failure)
  delete s _ _ := (s, .failure)
  connect s := (s, true)
  rename s request :=
    let dn := String.ofList request.dn
    let newDn := request.newRdn ++ ',' :: dnGetParent request.dn
    if dn = s.1.dn then
      (({ s.1.replaceValues "cn" [toUtf8 (String.ofList (dnGetName newDn))] with
        dn := String.ofList newDn }, s.2 ++ [dn]), .success)
    else ((s.1, s.2 ++ [dn]), .failure)
  object := Prod.fst
  addressed := Prod.snd
  connected _ := rfl
  object_connect _ := rfl
  addressed_connect _ := rfl
  object_search _ _ := rfl
  addressed_search _ _ := rfl
  searchObject_all s := by
    simp [adSearchObject, adSearch, searchResults, searchResultsFrom, QHash.insert, QHash.value]
  searchObject_attr s attr := by
    have hlookup (hash : QHash String (List QByteArray)) :
        (hash.filter (·.1 = attr)).lookup attr = hash.lookup attr := by
      induction hash with
      | nil => rfl
      | cons entry hash ih =>
        by_cases hentry : entry.1 = attr
        · rw [List.filter_cons, if_pos (decide_eq_true hentry), List.lookup_cons,
            List.lookup_cons, ih]
        · rw [List.filter_cons, if_neg fun h => hentry (of_decide_eq_true h), ih,
            List.lookup_cons, beq_eq_false_iff_ne.2 (Ne.symm hentry)]
    simp [adSearchObject, adSearch, searchResults, searchResultsFrom, QHash.insert, QHash.value,
      AdObject.getValues, hlookup]
  addressed_modifyReplace s dn attr values _ := by
    split_ifs <;> rfl
  object_modifyReplace s attr values _ := by
    rw [if_pos rfl]
  addressed_rename s request := by
    dsimp only
    split_ifs <;> rfl
  object_rename s newRdn := by
    dsimp only
    rw [if_pos (by exact String.ofList_toList)]

namespace PsoSession

/-- A settings object p, loaded by the widget. -/
def sampleSession : PsoSession (AdObject × List String) :=
  let object : AdObject := ⟨"CN=p,DC=d", [("cn", [toUtf8 "p"])]⟩
  ⟨(object, []), PSOResultsWidget.update zeroRuntime ⟨.empty, .empty, false⟩ object⟩

/-- The console loads the object again, when it has been renamed. -/
def sampleRefresh (s : AdObject × List String) (w : PSOResultsWidget) (_ : String) :
    (AdObject × List String) × PSOResultsWidget :=
  (s, w.update zeroRuntime s.1)

theorem loaded_sampleSession : sampleSession.Loaded zeroRuntime sampleServer :=
  ⟨by decide, ⟨.empty, .empty, false⟩, rfl⟩

/-- The fields with a name, and all else as it is shown. -/
def sampleFields (name : String) : PSOEditWidget :=
  { sampleSession.widget.psoEditWidget with name := name, minPasswdLen := 7 }

/-- Passwords get a length, and p keeps its name. -/
theorem roundOk_of_run_length : RoundOk zeroRuntime sampleServer sampleSession
    (.apply (sampleFields "p"))
    (sampleSession.round zeroRuntime sampleServer sampleRefresh (.apply (sampleFields "p"))) :=
  roundOk_of_run zeroRuntime sampleServer sampleRefresh (.start loaded_sampleSession)
    (by decide +kernel)

/-- A settings object that has been renamed is not found. -/
theorem not_roundOk : ¬∀ {σ : Type} (rt : Runtime) (server : PsoServer σ)
    (refreshPsoSubtree : σ → PSOResultsWidget → String → σ × PSOResultsWidget)
    (session : PsoSession σ) (round : PsoRound),
    Run (Loaded rt server) (fun _ _ => True) (PsoSession.round rt server refreshPsoSubtree)
      session →
      RoundOk rt server session round (session.round rt server refreshPsoSubtree round) := by
  intro hall
  have hround := hall zeroRuntime sampleServer sampleRefresh sampleSession
    (.apply (sampleFields "q")) (.start loaded_sampleSession)
  have hsaved : (sampleSession.round zeroRuntime sampleServer sampleRefresh
      (.apply (sampleFields "q"))).widget.savedObject = .empty := by
    decide +kernel
  have hobject : (sampleServer.object (sampleSession.round zeroRuntime sampleServer sampleRefresh
      (.apply (sampleFields "q"))).server).dn = "CN=q,DC=d" := by
    decide +kernel
  have hdn : AdObject.empty.dn = "CN=q,DC=d" := by
    rw [← hobject, ← hsaved]
    exact congrArg AdObject.dn hround.saved
  exact absurd hdn (by decide)

end PsoSession

end Admc
