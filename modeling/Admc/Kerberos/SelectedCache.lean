import Admc.Kerberos.Client
import Mathlib.Data.List.TakeWhile

/-!
# The selected credential cache

Caches are kept for whole names of principals, but a cache is named by what is before the first
at sign. Principals of different realms may so have one cache: what is stored for one of them
takes the place of what has been stored for the other, for which the cache is still kept.

`selectsOwn_of_run`: while no principal authenticates whose cache is kept for another one, the
selected cache has credentials of the principal that has been selected. `selectsOwn_step_iff`:
and no longer.
-/

namespace Admc

namespace Krb5Client

section
variable (krb : Krb5Library) (uid : ℕ)

/-- A client that has just been constructed, in any process. -/
def IsConstructed (client : Krb5Client) : Prop :=
  ∃ (process : Krb5Client) (answers : ConstructAnswers), client = process.construct krb uid answers

/-- The operation is to select the principal. -/
def Operation.Selects : Operation → String → Prop
  | .authenticate principal _ _, selected => principal = selected
  | .setCurrentPrincipal principal _, selected => principal = selected
  | .logout _, _ => False
  | .updateTempCaches _, _ => False

/-- If the operation selects a principal and throws nothing, `KRB5CCNAME` names a cache with
    credentials of the principal after it. -/
def SelectsOwn (client : Krb5Client) (operation : Operation) : Prop :=
  ∀ principal, operation.Selects principal → (client.perform krb uid operation).2 = none →
    ∃ ccache, (client.step krb uid operation).krb5ccname = some ccache ∧
      (client.step krb uid operation).HoldsCreds krb ccache principal

/-- If a principal authenticates, and comes to have its cache initialized, this cache is not
    kept for another principal. -/
def TakesNoOther (client : Krb5Client) : Operation → Prop
  | .authenticate principal enterprise answers => Initializes krb principal enterprise answers →
    ∀ other, other ≠ principal →
      client.principalCacheMap.lookup other ≠ some (principalCcache uid principal)
  | .setCurrentPrincipal _ _ => True
  | .logout _ => True
  | .updateTempCaches _ => True

/-- Each cache that is kept has credentials of the principal that it is kept for. -/
def KeepsCreds (client : Krb5Client) : Prop :=
  ∀ principal ccache, client.principalCacheMap.lookup principal = some ccache →
    client.HoldsCreds krb ccache principal

end

section
variable {krb : Krb5Library} {uid : ℕ} {client : Krb5Client} {ccache : Ccache}
  {principal other : String} {operation : Operation}

/-- A cache is of one principal. -/
theorem HoldsCreds.unique (h : client.HoldsCreds krb ccache principal)
    (h' : client.HoldsCreds krb ccache other) : other = principal := by
  obtain ⟨content, hcontent, hname, -⟩ := h
  obtain ⟨content', hcontent', hname', -⟩ := h'
  obtain rfl := Option.some.inj (hcontent.symm.trans hcontent')
  exact (Except.ok.inj (hname.symm.trans hname')).symm

theorem HoldsCreds.of_caches {client' : Krb5Client} (h : client.HoldsCreds krb ccache principal)
    (hcaches : client'.caches ccache = client.caches ccache) :
    client'.HoldsCreds krb ccache principal := by
  obtain ⟨content, hcontent, hname, hcreds⟩ := h
  exact ⟨content, hcaches.trans hcontent, hname, hcreds⟩

/-! ## Caches that are kept -/

theorem KeepsCreds.destroyCache (h : client.KeepsCreds krb) :
    (client.destroyCache principal).KeepsCreds krb := by
  intro other ccache hlookup
  rw [lookup_destroyCache] at hlookup
  split_ifs at hlookup with hother
  have hholds := h other ccache hlookup
  -- the cache that is destroyed is of another principal
  refine hholds.of_caches (caches_destroyCache fun hprincipal => hother ?_)
  exact (h principal ccache hprincipal).unique hholds

theorem KeepsCreds.setContent (h : client.KeepsCreds krb) {content : CcacheContent}
    (hfree : ∀ other, client.principalCacheMap.lookup other ≠ some ccache) :
    (client.setContent ccache content).KeepsCreds krb := by
  intro other ccache' hlookup
  have hne : ccache' ≠ ccache := by
    rintro rfl
    exact hfree other hlookup
  exact (h other ccache' hlookup).of_caches (Function.update_of_ne hne _ client.caches)

theorem KeepsCreds.loadCacheData (h : client.KeepsCreds krb) {answers : LoadAnswers}
    {isSystem : Bool} : (client.loadCacheData krb answers ccache isSystem).KeepsCreds krb := by
  obtain heq | ⟨content, principal, tgtData, hcontent, hname, hcreds, heq⟩ :=
    @loadCacheData_cases krb client answers ccache isSystem
  · rwa [heq]
  · rw [heq]
    intro other ccache' hlookup
    rw [QHash.lookup_insert] at hlookup
    split_ifs at hlookup with hother
    · obtain rfl := Option.some.inj hlookup
      exact ⟨content, hcontent, hother ▸ hname, hcreds⟩
    · exact h other ccache' hlookup

theorem KeepsCreds.kinit (h : client.KeepsCreds krb) {enterprise : Bool} {answers : KinitAnswers}
    (hoperation : client.TakesNoOther krb uid (.authenticate principal enterprise answers)) :
    (client.kinit krb uid principal enterprise answers).1.KeepsCreds krb := by
  obtain ⟨-, error, heq⟩ | ⟨hinitializes, princ, creds, -, hcases⟩ :=
    @kinit_cases krb uid client principal enterprise answers
  · rw [heq]
    exact h.destroyCache
  · have hset : ((client.destroyCache principal).setContent (principalCcache uid principal)
        ⟨princ, creds⟩).KeepsCreds krb := by
      refine h.destroyCache.setContent fun other hlookup => ?_
      rw [lookup_destroyCache] at hlookup
      split_ifs at hlookup with hother
      exact hoperation hinitializes other hother hlookup
    obtain ⟨error, heq⟩ | ⟨-, heq⟩ := hcases
    · rwa [heq]
    · rw [heq]
      have hnamed : KeepsCreds krb
          { (client.destroyCache principal).setContent (principalCcache uid principal)
              ⟨princ, creds⟩ with
            krb5ccname := some (principalCcache uid principal) } := hset
      exact hnamed.loadCacheData

theorem KeepsCreds.setCurrentPrincipal (h : client.KeepsCreds krb) {setenvResult : ℤ} :
    (client.setCurrentPrincipal krb principal setenvResult).1.KeepsCreds krb := by
  obtain ⟨error, heq⟩ | ⟨ccache, -, heq⟩ :=
    @setCurrentPrincipal_cases krb client principal setenvResult
  · rwa [heq]
  · rw [heq]
    exact h

theorem KeepsCreds.logout (h : client.KeepsCreds krb) {deleteCreds : Bool} :
    (client.logout deleteCreds).KeepsCreds krb := by
  rw [Krb5Client.logout]
  dsimp only
  split_ifs
  · exact KeepsCreds.destroyCache h
  · exact h

/-- What an operation does to the caches that are kept. -/
theorem KeepsCreds.step (h : client.KeepsCreds krb)
    (hoperation : client.TakesNoOther krb uid operation) :
    (client.step krb uid operation).KeepsCreds krb := by
  cases operation with
  | authenticate principal enterprise answers => exact h.kinit hoperation
  | setCurrentPrincipal principal setenvResult => exact h.setCurrentPrincipal
  | logout deleteCreds => exact h.logout
  | updateTempCaches rememberedPrincipals => exact h

/-! ## Principals that are selected -/

/-- A principal that authenticates has its own cache selected. -/
theorem selectsOwn_authenticate (hnames : krb.KeepsNames) {enterprise : Bool}
    {answers : KinitAnswers} :
    client.SelectsOwn krb uid (.authenticate principal enterprise answers) := by
  rintro _ rfl hthrown
  change (client.kinit krb uid principal enterprise answers).2 = none at hthrown
  change ∃ ccache, (client.kinit krb uid principal enterprise answers).1.krb5ccname = some ccache ∧
    (client.kinit krb uid principal enterprise answers).1.HoldsCreds krb ccache principal
  obtain ⟨-, error, heq⟩ | ⟨-, princ, creds, hparse, ⟨error, heq⟩ | ⟨hcreds, heq⟩⟩ :=
    @kinit_cases krb uid client principal enterprise answers
  · rw [heq] at hthrown
    exact nomatch hthrown
  · rw [heq] at hthrown
    exact nomatch hthrown
  · rw [heq]
    refine ⟨principalCcache uid principal, loadCacheData_same.2.1, ⟨princ, creds⟩, ?_,
      hnames _ _ _ hparse, hcreds⟩
    exact (congrFun loadCacheData_same.1 _).trans (Function.update_self ..)

theorem KeepsCreds.selectsOwn (hnames : krb.KeepsNames) (h : client.KeepsCreds krb) :
    client.SelectsOwn krb uid operation := by
  cases operation with
  | authenticate principal enterprise answers => exact selectsOwn_authenticate hnames
  | setCurrentPrincipal principal setenvResult =>
    rintro _ rfl hthrown
    change (client.setCurrentPrincipal krb principal setenvResult).2 = none at hthrown
    obtain ⟨error, heq⟩ | ⟨ccache, hlookup, heq⟩ :=
      @setCurrentPrincipal_cases krb client principal setenvResult
    · rw [heq] at hthrown
      exact nomatch hthrown
    · have hstep : client.step krb uid (.setCurrentPrincipal principal setenvResult) =
          { client with krb5ccname := some ccache, currPrincipal := principal } :=
        congrArg Prod.fst heq
      rw [hstep]
      exact ⟨ccache, rfl, h principal ccache hlookup⟩
  | logout deleteCreds => exact nofun
  | updateTempCaches rememberedPrincipals => exact nofun

/-- A principal whose cache has been taken for another one has the credentials of that one
    selected. -/
theorem not_selectsOwn_of_taken {content : CcacheContent}
    (hlookup : client.principalCacheMap.lookup principal = some ccache)
    (hcontent : client.caches ccache = some content)
    (hother : krb.unparseName content.principal ≠ .ok principal) :
    ¬client.SelectsOwn krb uid (.setCurrentPrincipal principal 0) := by
  intro h
  have hset : client.setCurrentPrincipal krb principal 0 =
      ({ client with krb5ccname := some ccache, currPrincipal := principal }, none) := by
    rw [Krb5Client.setCurrentPrincipal, hlookup]
    rfl
  have hstep : client.step krb uid (.setCurrentPrincipal principal 0) =
      { client with krb5ccname := some ccache, currPrincipal := principal } :=
    congrArg Prod.fst hset
  obtain ⟨ccache', hccname, content', hcontent', hname, -⟩ :=
    h principal rfl (congrArg Prod.snd hset)
  rw [hstep] at hccname hcontent'
  obtain rfl := Option.some.inj hccname
  obtain rfl := Option.some.inj (hcontent.symm.trans hcontent')
  exact hother hname

theorem keepsCreds_of_run
    (h : Run (IsConstructed krb uid) (TakesNoOther krb uid) (step krb uid) client) :
    client.KeepsCreds krb := by
  refine h.invariant (fun client hconstructed => ?_) fun client operation h hoperation =>
    h.step hoperation
  obtain ⟨process, answers, rfl⟩ := hconstructed
  intro principal ccache hlookup
  have hloaded := @loaded_construct krb uid process answers
  exact (hloaded.kept principal ccache hlookup).1

/-- While no principal authenticates whose cache is kept for another one, each principal that
    is selected is the one of the selected cache. -/
theorem selectsOwn_of_run (krb : Krb5Library) (uid : ℕ) (client : Krb5Client)
    (hnames : krb.KeepsNames)
    (h : Run (IsConstructed krb uid) (TakesNoOther krb uid) (step krb uid) client)
    (operation : Operation) : client.SelectsOwn krb uid operation :=
  (keepsCreds_of_run h).selectsOwn hnames

/-- Once the cache of another principal has been taken, selecting that principal selects
    credentials of the one who has taken it. -/
theorem selectsOwn_step_iff (hnames : krb.KeepsNames)
    (h : Run (IsConstructed krb uid) (TakesNoOther krb uid) (step krb uid) client) :
    (∀ next, (client.step krb uid operation).SelectsOwn krb uid next) ↔
      client.TakesNoOther krb uid operation := by
  refine ⟨fun hnext => ?_, fun hoperation next =>
    selectsOwn_of_run krb uid _ hnames (h.next hoperation) next⟩
  cases operation with
  | authenticate principal enterprise answers =>
    intro hinitializes other hother hlookup
    obtain ⟨hnot, -⟩ | ⟨-, princ, creds, hparse, hcases⟩ :=
      @kinit_cases krb uid client principal enterprise answers
    · exact hnot hinitializes
    have hname := hnames _ _ _ hparse
    have hforeign : krb.unparseName princ ≠ .ok other := fun heq =>
      hother (Except.ok.inj (heq.symm.trans hname))
    -- the cache is still kept for the other principal
    have hkept : ((client.destroyCache principal).setContent (principalCcache uid principal)
        ⟨princ, creds⟩).principalCacheMap.lookup other = some (principalCcache uid principal) :=
      lookup_destroyCache.trans ((if_neg hother).trans hlookup)
    have hcontent : ((client.destroyCache principal).setContent (principalCcache uid principal)
        ⟨princ, creds⟩).caches (principalCcache uid principal) = some ⟨princ, creds⟩ :=
      Function.update_self ..
    have htaken : (client.kinit krb uid principal enterprise answers).1.principalCacheMap.lookup
          other = some (principalCcache uid principal) ∧
        (client.kinit krb uid principal enterprise answers).1.caches
          (principalCcache uid principal) = some ⟨princ, creds⟩ := by
      obtain ⟨error, heq⟩ | ⟨-, heq⟩ := hcases
      · rw [heq]
        exact ⟨hkept, hcontent⟩
      · rw [heq]
        exact ⟨lookup_loadCacheData_of_kept hkept, (congrFun loadCacheData_same.1 _).trans hcontent⟩
    exact not_selectsOwn_of_taken htaken.1 htaken.2 hforeign (hnext (.setCurrentPrincipal other 0))
  | setCurrentPrincipal principal setenvResult => trivial
  | logout deleteCreds => trivial
  | updateTempCaches rememberedPrincipals => trivial

end

/-! ## Two principals of one name -/

/-- A library for which the realm of a principal is what is after the first at sign. -/
def sampleKrb : Krb5Library where
  parseName name _ :=
    if '@' ∈ name.toList then
      .ok ⟨[String.ofList (name.toList.takeWhile (· ≠ '@'))],
        String.ofList (name.toList.dropWhile (· ≠ '@')).tail⟩
    else .error 1
  unparseName principal :=
    .ok (String.intercalate "/" principal.components ++ "@" ++ principal.realm)
  errorMessage _ := ""

theorem keepsNames_sampleKrb : sampleKrb.KeepsNames := by
  intro name enterprise principal h
  rw [sampleKrb] at h ⊢
  dsimp only at h ⊢
  split_ifs at h with hat
  obtain rfl := Except.ok.inj h
  cases hdrop : name.toList.dropWhile (· ≠ '@') with
  | nil =>
    exact absurd (List.dropWhile_eq_nil_iff.1 hdrop '@' hat) (by decide)
  | cons first realm =>
    have hhead := List.head?_dropWhile_not (· ≠ '@') name.toList
    rw [hdrop] at hhead
    obtain rfl : first = '@' := by simpa using hhead
    have hname : name.toList = name.toList.takeWhile (· ≠ '@') ++ '@' :: realm := by
      rw [← hdrop, List.takeWhile_append_dropWhile]
    refine congrArg Except.ok (String.toList_injective ?_)
    simpa [String.toList_append] using hname.symm

/-- A process without credential caches. -/
def emptyProcess : Krb5Client where
  caches _ := none
  krb5ccname := none
  destroyed := []
  sysCcache := none
  krbTempCaches := []
  currPrincipal := ""
  sysPrincipal := ""
  principalTgtMap := []
  principalCacheMap := []

/-- Everything can be read, and there are no caches to load. -/
def noCaches : ConstructAnswers where
  now := 0
  readable _ := true
  configuredCcache := ⟨"FILE", "/tmp/krb5cc_1000"⟩
  resolves _ := true
  entryList := []

/-- A ticket for a realm is received, and stored. -/
def ticketReceived (realm : String) : KinitAnswers where
  now := 0
  readable _ := true
  initCreds := .ok ⟨krbtgt realm, 0, 36000, 604800⟩
  resolveError := none
  initializeError := none
  storeCredError := none
  setenvFails := false

/-- A user of the realm A has authenticated. -/
def clientOfA : Krb5Client :=
  (emptyProcess.construct sampleKrb 1000 noCaches).step sampleKrb 1000
    (.authenticate "u@A" false (ticketReceived "A"))

theorem isConstructed_emptyProcess :
    IsConstructed sampleKrb 1000 (emptyProcess.construct sampleKrb 1000 noCaches) :=
  ⟨emptyProcess, noCaches, rfl⟩

theorem selectsOwn_of_run_first :
    clientOfA.SelectsOwn sampleKrb 1000 (.setCurrentPrincipal "u@A" 0) := by
  have hfirst : (emptyProcess.construct sampleKrb 1000 noCaches).TakesNoOther sampleKrb 1000
      (.authenticate "u@A" false (ticketReceived "A")) := fun _ _ _ => nofun
  exact selectsOwn_of_run sampleKrb 1000 clientOfA keepsNames_sampleKrb
    (.next (.start isConstructed_emptyProcess) hfirst) (.setCurrentPrincipal "u@A" 0)

/-- A user of the same name in another realm takes the cache, and selecting the first user
    selects the credentials of the second one. -/
theorem not_selectsOwn : ¬∀ (krb : Krb5Library) (uid : ℕ) (client : Krb5Client),
    krb.KeepsNames → Run (IsConstructed krb uid) (fun _ _ => True) (step krb uid) client →
      ∀ operation, client.SelectsOwn krb uid operation := by
  intro h
  have hrun : Run (IsConstructed sampleKrb 1000) (fun _ _ => True) (step sampleKrb 1000)
      (clientOfA.step sampleKrb 1000 (.authenticate "u@B" false (ticketReceived "B"))) :=
    .next (.next (.start isConstructed_emptyProcess) trivial) trivial
  have hlookup : (clientOfA.step sampleKrb 1000 (.authenticate "u@B" false
      (ticketReceived "B"))).principalCacheMap.lookup "u@A" =
        some (principalCcache 1000 "u@A") := by
    decide
  have hcontent : (clientOfA.step sampleKrb 1000 (.authenticate "u@B" false
      (ticketReceived "B"))).caches (principalCcache 1000 "u@A") =
        some ⟨⟨["u"], "B"⟩, [⟨krbtgt "B", 0, 36000, 604800⟩]⟩ := by
    decide
  exact not_selectsOwn_of_taken hlookup hcontent (by decide)
    (h sampleKrb 1000 _ keepsNames_sampleKrb hrun (.setCurrentPrincipal "u@A" 0))

end Krb5Client

end Admc
