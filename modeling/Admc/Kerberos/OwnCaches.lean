import Admc.Kerberos.SelectedCache

/-!
# The caches that are deleted

The default cache of the session is kept for its principal, as the caches in the directory of
caches are for theirs. Only its type tells it apart, if that is a keyring, and only when the
client logs out.

`onlyOwn_of_run`: while the default cache is not kept for a principal that authenticates, that
logs out with its credentials deleted, or that is not remembered, only caches in the directory
are deleted. `onlyOwn_step_iff`: and no longer.
-/

namespace Admc

namespace Krb5Client

section
variable (uid : ℕ) (defCcache : Ccache) (existed : Prop) (client : Krb5Client)

/-- All caches that have been destroyed and all files that a crash will remove are in the
    directory of caches. The default cache, if it existed before, is there, and will be. -/
structure OnlyOwn : Prop where
  destroyed : ∀ ccache ∈ client.destroyed, ccache.IsOwn uid
  listed : ∀ name ∈ client.krbTempCaches, (ccachesPath uid).toList <+: name.toList
  spared : existed → defCcache ∉ client.destroyed ∧ client.caches defCcache ≠ none ∧
    client.crashHandler.caches defCcache ≠ none

/-- The default cache is not kept for a principal that authenticates, is logged out with its
    credentials deleted (unless it is that of the system), or is not remembered. -/
def SparesDefault : Operation → Prop
  | .authenticate principal _ _ => client.principalCacheMap.lookup principal ≠ some defCcache
  | .setCurrentPrincipal _ _ => True
  | .logout deleteCreds => deleteCreds = true → client.currPrincipal ≠ client.sysPrincipal →
    client.principalCacheMap.lookup client.currPrincipal ≠ some defCcache
  | .updateTempCaches rememberedPrincipals => ∀ principal,
    client.principalCacheMap.lookup principal = some defCcache → principal ∈ rememberedPrincipals

/-- What holds while the default cache is spared: the other caches that are kept are in the
    directory of caches. -/
structure KeepsOwn : Prop where
  kept : ∀ principal ccache, client.principalCacheMap.lookup principal = some ccache →
    ccache.IsOwn uid ∨ ccache = defCcache ∧ existed
  destroyed : ∀ ccache ∈ client.destroyed, ccache.IsOwn uid ∧ (existed → ccache ≠ defCcache)
  listed : ∀ name ∈ client.krbTempCaches, (ccachesPath uid).toList <+: name.toList ∧
    (existed → defCcache.type = "FILE" → name ≠ defCcache.name)
  present : existed → client.caches defCcache ≠ none

end

section
variable {krb : Krb5Library} {uid : ℕ} {defCcache ccache : Ccache} {existed : Prop}
  {client : Krb5Client} {principal : String} {operation : Operation}

theorem isOwn_principalCcache : (principalCcache uid principal).IsOwn uid := by
  refine ⟨rfl, ?_⟩
  rw [principalCcache, String.toList_append, String.toList_append, List.append_assoc]
  exact List.prefix_append _ _

/-- A cache that is kept, and not the default cache, is in the directory. -/
theorem KeepsOwn.isOwn (h : client.KeepsOwn uid defCcache existed)
    (hlookup : client.principalCacheMap.lookup principal = some ccache)
    (hne : existed → ccache ≠ defCcache) : ccache.IsOwn uid :=
  (h.kept principal ccache hlookup).resolve_right fun ⟨heq, hexisted⟩ => hne hexisted heq

/-- It depends on no other fields. -/
theorem KeepsOwn.congr {client' : Krb5Client} (h : client.KeepsOwn uid defCcache existed)
    (hmap : client'.principalCacheMap = client.principalCacheMap)
    (hdestroyed : client'.destroyed = client.destroyed)
    (hlisted : client'.krbTempCaches = client.krbTempCaches)
    (hcaches : client'.caches = client.caches) : client'.KeepsOwn uid defCcache existed :=
  ⟨hmap ▸ h.kept, hdestroyed ▸ h.destroyed, hlisted ▸ h.listed, hcaches ▸ h.present⟩

theorem KeepsOwn.onlyOwn (h : client.KeepsOwn uid defCcache existed) :
    client.OnlyOwn uid defCcache existed where
  destroyed ccache hccache := (h.destroyed ccache hccache).1
  listed name hname := (h.listed name hname).1
  spared hexisted := by
    refine ⟨fun hmem => (h.destroyed defCcache hmem).2 hexisted rfl, h.present hexisted, ?_⟩
    rw [crashHandler]
    dsimp only
    split_ifs with hfile
    · exact absurd rfl ((h.listed _ hfile.2).2 hexisted hfile.1)
    · exact h.present hexisted

/-! ## What operations delete -/

theorem KeepsOwn.destroyCache (h : client.KeepsOwn uid defCcache existed)
    (hspares : existed → client.principalCacheMap.lookup principal ≠ some defCcache) :
    (client.destroyCache principal).KeepsOwn uid defCcache existed where
  kept other ccache hlookup := by
    rw [lookup_destroyCache] at hlookup
    split_ifs at hlookup
    exact h.kept other ccache hlookup
  destroyed ccache hccache := by
    obtain hccache | hlookup := mem_destroyed_destroyCache.1 hccache
    · exact h.destroyed ccache hccache
    · have hne : existed → ccache ≠ defCcache := by
        rintro hexisted rfl
        exact hspares hexisted hlookup
      exact ⟨h.isOwn hlookup hne, hne⟩
  listed := by
    have hsame : (client.destroyCache principal).krbTempCaches = client.krbTempCaches := by
      rw [Krb5Client.destroyCache]
      cases client.principalCacheMap.lookup principal <;> rfl
    rw [hsame]
    exact h.listed
  present hexisted := by
    rw [caches_destroyCache (hspares hexisted)]
    exact h.present hexisted

theorem KeepsOwn.setContent (h : client.KeepsOwn uid defCcache existed) {content : CcacheContent} :
    (client.setContent ccache content).KeepsOwn uid defCcache existed where
  kept := h.kept
  destroyed := h.destroyed
  listed := h.listed
  present hexisted := by
    rw [Krb5Client.setContent]
    dsimp only
    rw [Function.update_apply]
    split_ifs
    · exact Option.some_ne_none content
    · exact h.present hexisted

theorem KeepsOwn.loadCacheData (h : client.KeepsOwn uid defCcache existed)
    (hccache : ccache.IsOwn uid) {answers : LoadAnswers} {isSystem : Bool} :
    (client.loadCacheData krb answers ccache isSystem).KeepsOwn uid defCcache existed := by
  obtain heq | ⟨content, principal, tgtData, -, -, -, heq⟩ :=
    @loadCacheData_cases krb client answers ccache isSystem
  · rwa [heq]
  · rw [heq]
    refine ⟨fun other ccache' hlookup => ?_, h.destroyed, h.listed, h.present⟩
    rw [QHash.lookup_insert] at hlookup
    split_ifs at hlookup
    · obtain rfl := Option.some.inj hlookup
      exact .inl hccache
    · exact h.kept other ccache' hlookup

theorem KeepsOwn.kinit (h : client.KeepsOwn uid defCcache existed) {enterprise : Bool}
    {answers : KinitAnswers}
    (hspares : existed → client.principalCacheMap.lookup principal ≠ some defCcache) :
    (client.kinit krb uid principal enterprise answers).1.KeepsOwn uid defCcache existed := by
  have hdestroy := h.destroyCache hspares
  obtain ⟨-, error, heq⟩ | ⟨-, princ, creds, -, ⟨error, heq⟩ | ⟨-, heq⟩⟩ :=
    @kinit_cases krb uid client principal enterprise answers
  · rwa [heq]
  · rw [heq]
    exact hdestroy.setContent
  · rw [heq]
    -- the variable is set before the cache is loaded, and the current principal after that
    have hstored : KeepsOwn uid defCcache existed
        { (client.destroyCache principal).setContent (principalCcache uid principal)
            ⟨princ, creds⟩ with
          krb5ccname := some (principalCcache uid principal) } :=
      hdestroy.setContent.congr rfl rfl rfl rfl
    exact (hstored.loadCacheData isOwn_principalCcache).congr rfl rfl rfl rfl

theorem KeepsOwn.setCurrentPrincipal (h : client.KeepsOwn uid defCcache existed)
    {setenvResult : ℤ} :
    (client.setCurrentPrincipal krb principal setenvResult).1.KeepsOwn uid defCcache existed := by
  obtain ⟨error, heq⟩ | ⟨ccache, -, heq⟩ :=
    @setCurrentPrincipal_cases krb client principal setenvResult
  · rwa [heq]
  · rw [heq]
    exact h.congr rfl rfl rfl rfl

theorem KeepsOwn.logout (h : client.KeepsOwn uid defCcache existed) {deleteCreds : Bool}
    (hspares : existed → client.SparesDefault defCcache (.logout deleteCreds)) :
    (client.logout deleteCreds).KeepsOwn uid defCcache existed := by
  rw [Krb5Client.logout]
  dsimp only
  split_ifs with hdelete
  · have hnamed : KeepsOwn uid defCcache existed
        { client with krb5ccname := some ⟨"MEMORY", "empty_ccache"⟩ } := h.congr rfl rfl rfl rfl
    have hdestroy := @KeepsOwn.destroyCache _ _ _ _ client.currPrincipal hnamed
      fun hexisted => hspares hexisted hdelete.1 hdelete.2
    exact hdestroy.congr rfl rfl rfl rfl
  · exact h.congr rfl rfl rfl rfl

theorem KeepsOwn.updateTempCaches (h : client.KeepsOwn uid defCcache existed)
    {rememberedPrincipals : List String}
    (hspares : existed → client.SparesDefault defCcache (.updateTempCaches rememberedPrincipals)) :
    (client.updateTempCaches rememberedPrincipals).KeepsOwn uid defCcache existed where
  kept := h.kept
  destroyed := h.destroyed
  listed name hname := by
    obtain ⟨principal, hprincipal, hmap⟩ := List.mem_filterMap.1 hname
    obtain ⟨ccache, hlookup, rfl⟩ := Option.map_eq_some_iff.1 hmap
    have hremembered := of_decide_eq_true (List.mem_filter.1 hprincipal).2
    have hne : existed → ccache ≠ defCcache := by
      rintro hexisted rfl
      exact hremembered (hspares hexisted principal hlookup)
    have hown := h.isOwn hlookup hne
    refine ⟨hown.2, fun hexisted hfile heq => hne hexisted ?_⟩
    -- two files of one name are one cache
    obtain ⟨type, name⟩ := ccache
    obtain ⟨defType, defName⟩ := defCcache
    exact congrArg₂ Ccache.mk (hown.1.trans hfile.symm) heq
  present := h.present

theorem KeepsOwn.step (h : client.KeepsOwn uid defCcache existed)
    (hspares : existed → client.SparesDefault defCcache operation) :
    (client.step krb uid operation).KeepsOwn uid defCcache existed := by
  cases operation with
  | authenticate principal enterprise answers => exact h.kinit hspares
  | setCurrentPrincipal principal setenvResult => exact h.setCurrentPrincipal
  | logout deleteCreds => exact h.logout hspares
  | updateTempCaches rememberedPrincipals => exact h.updateTempCaches hspares

end

section
variable {krb : Krb5Library} {uid : ℕ} {process client : Krb5Client} {answers : ConstructAnswers}
  {operation : Operation}

/-- Nothing has been destroyed or listed yet, and the cache of the system is not known. -/
structure IsFresh (process : Krb5Client) : Prop where
  destroyed : process.destroyed = []
  krbTempCaches : process.krbTempCaches = []
  sysCcache : process.sysCcache = none

theorem IsFresh.keepsOwn_construct (h : process.IsFresh) :
    (process.construct krb uid answers).KeepsOwn uid (process.ccDefault answers)
      (process.caches (process.ccDefault answers) ≠ none) := by
  have hloaded := @loaded_construct krb uid process answers
  rw [h.sysCcache] at hloaded
  refine ⟨fun principal ccache hlookup => ?_, ?_, ?_, fun hexisted => ?_⟩
  · obtain ⟨⟨content, hcontent, -⟩, hdef | hown⟩ := hloaded.kept principal ccache hlookup
    · refine .inr ⟨hdef, ?_⟩
      rw [hloaded.caches, hdef] at hcontent
      exact Option.ne_none_iff_exists'.2 ⟨content, hcontent⟩
    · exact .inl hown
  · rw [hloaded.destroyed, h.destroyed]
    exact nofun
  · rw [hloaded.krbTempCaches, h.krbTempCaches]
    exact nofun
  · rwa [hloaded.caches]

theorem keepsOwn_of_run (hprocess : process.IsFresh)
    (h : Run (· = process.construct krb uid answers)
      (fun client operation => process.caches (process.ccDefault answers) ≠ none →
        client.SparesDefault (process.ccDefault answers) operation) (step krb uid) client) :
    client.KeepsOwn uid (process.ccDefault answers)
      (process.caches (process.ccDefault answers) ≠ none) := by
  refine h.invariant (fun client hclient => ?_) fun client operation h hspares => h.step hspares
  rw [hclient]
  exact hprocess.keepsOwn_construct

/-- While the default cache is spared, if there is one, only caches in the directory of caches
    are destroyed or listed. -/
theorem onlyOwn_of_run (krb : Krb5Library) (uid : ℕ) (process : Krb5Client)
    (answers : ConstructAnswers) (client : Krb5Client) (hprocess : process.IsFresh)
    (h : Run (· = process.construct krb uid answers)
      (fun client operation => process.caches (process.ccDefault answers) ≠ none →
        client.SparesDefault (process.ccDefault answers) operation) (step krb uid) client) :
    client.OnlyOwn uid (process.ccDefault answers)
      (process.caches (process.ccDefault answers) ≠ none) :=
  (keepsOwn_of_run hprocess h).onlyOwn

/-- Once the default cache is not spared, it is deleted, or listed for a crash to delete. -/
theorem onlyOwn_step_iff (hprocess : process.IsFresh)
    (hexisted : process.caches (process.ccDefault answers) ≠ none)
    (htype : (ccachesPath uid).toList <+: (process.ccDefault answers).name.toList →
      (process.ccDefault answers).type = "FILE")
    (h : Run (· = process.construct krb uid answers)
      (fun client operation => process.caches (process.ccDefault answers) ≠ none →
        client.SparesDefault (process.ccDefault answers) operation) (step krb uid) client) :
    (client.step krb uid operation).OnlyOwn uid (process.ccDefault answers)
        (process.caches (process.ccDefault answers) ≠ none) ↔
      client.SparesDefault (process.ccDefault answers) operation := by
  refine ⟨fun hown => ?_, fun hspares =>
    onlyOwn_of_run krb uid process answers _ hprocess (h.next fun _ => hspares)⟩
  obtain ⟨hdestroyed, -, hcrash⟩ := hown.spared hexisted
  cases operation with
  | authenticate principal enterprise answers' =>
    intro hlookup
    have hsame : (client.kinit krb uid principal enterprise answers').1.destroyed =
        (client.destroyCache principal).destroyed := by
      obtain ⟨-, error, heq⟩ | ⟨-, princ, creds, -, ⟨error, heq⟩ | ⟨-, heq⟩⟩ :=
        @kinit_cases krb uid client principal enterprise answers'
      · rw [heq]
      · rw [heq]
        rfl
      · rw [heq]
        exact loadCacheData_same.2.2.1
    refine hdestroyed ?_
    change _ ∈ (client.kinit krb uid principal enterprise answers').1.destroyed
    rw [hsame]
    exact mem_destroyed_destroyCache.2 (.inr hlookup)
  | setCurrentPrincipal principal setenvResult => trivial
  | logout deleteCreds =>
    intro hdelete hcurrent hlookup
    refine hdestroyed ?_
    change _ ∈ (client.logout deleteCreds).destroyed
    rw [Krb5Client.logout]
    dsimp only
    rw [if_pos ⟨hdelete, hcurrent⟩]
    exact mem_destroyed_destroyCache.2 (.inr hlookup)
  | updateTempCaches rememberedPrincipals =>
    intro principal hlookup
    by_contra hremembered
    obtain ⟨before, after, hmap, -⟩ := List.lookup_eq_some_iff.1 hlookup
    have hkey : principal ∈ client.principalCacheMap.keys := by
      rw [hmap, QHash.keys, List.map_append, List.map_cons]
      exact List.mem_append_right _ List.mem_cons_self
    have hlisted : (process.ccDefault answers).name ∈
        (client.updateTempCaches rememberedPrincipals).krbTempCaches := by
      refine List.mem_filterMap.2 ⟨principal, List.mem_filter.2 ⟨hkey, ?_⟩, ?_⟩
      · exact decide_eq_true hremembered
      · rw [hlookup]
        rfl
    exact hcrash (if_pos ⟨htype (hown.listed _ hlisted), hlisted⟩)

end

/-! ## A default cache that is a file -/

/-- A process with a default cache, and the ticket of its principal. -/
def processWithDefault : Krb5Client :=
  { emptyProcess with
    caches := Function.update emptyProcess.caches ⟨"FILE", "/tmp/krb5cc_1000"⟩
      (some ⟨⟨["u"], "A"⟩, [⟨krbtgt "A", 0, 36000, 604800⟩]⟩) }

theorem isFresh_processWithDefault : processWithDefault.IsFresh := ⟨rfl, rfl, rfl⟩

/-- Another principal authenticates, and the first one is remembered. -/
theorem onlyOwn_of_run_remembered :
    (((processWithDefault.construct sampleKrb 1000 noCaches).step sampleKrb 1000
          (.authenticate "v@A" false (ticketReceived "A"))).step sampleKrb 1000
        (.updateTempCaches ["u@A"])).OnlyOwn 1000 (processWithDefault.ccDefault noCaches)
      (processWithDefault.caches (processWithDefault.ccDefault noCaches) ≠ none) := by
  refine onlyOwn_of_run sampleKrb 1000 processWithDefault noCaches _ isFresh_processWithDefault
    (.next (.next (.start rfl) fun _ => ?_) fun _ => ?_)
  · exact show (processWithDefault.construct sampleKrb 1000 noCaches).principalCacheMap.lookup
      "v@A" ≠ some ⟨"FILE", "/tmp/krb5cc_1000"⟩ by decide
  · intro principal hlookup
    have hmap : ((processWithDefault.construct sampleKrb 1000 noCaches).step sampleKrb 1000
        (.authenticate "v@A" false (ticketReceived "A"))).principalCacheMap =
          [("u@A", ⟨"FILE", "/tmp/krb5cc_1000"⟩), ("v@A", principalCcache 1000 "v@A")] := by
      decide
    rw [hmap, List.lookup_cons] at hlookup
    by_cases hfirst : principal = "u@A"
    · rw [hfirst]
      exact List.mem_singleton_self _
    · rw [beq_eq_false_iff_ne.2 hfirst] at hlookup
      obtain ⟨before, after, hlast, -⟩ := List.lookup_eq_some_iff.1 hlookup
      have hmem : (principal, processWithDefault.ccDefault noCaches) ∈
          [("v@A", principalCcache 1000 "v@A")] := by
        rw [hlast]
        exact List.mem_append_right _ List.mem_cons_self
      have hother : processWithDefault.ccDefault noCaches ≠ principalCcache 1000 "v@A" := by
        decide
      exact absurd (congrArg Prod.snd (List.mem_singleton.1 hmem)) hother

/-- The principal of the default cache authenticates, and the default cache is destroyed. -/
theorem not_onlyOwn : ¬∀ (krb : Krb5Library) (uid : ℕ) (process : Krb5Client)
    (answers : ConstructAnswers) (client : Krb5Client), process.IsFresh →
    Run (· = process.construct krb uid answers) (fun _ _ => True) (step krb uid) client →
      client.OnlyOwn uid (process.ccDefault answers)
        (process.caches (process.ccDefault answers) ≠ none) := by
  intro h
  have hown := h sampleKrb 1000 processWithDefault noCaches
    ((processWithDefault.construct sampleKrb 1000 noCaches).step sampleKrb 1000
      (.authenticate "u@A" false (ticketReceived "A"))) isFresh_processWithDefault
    (.next (.start rfl) trivial)
  have hdestroyed : ((processWithDefault.construct sampleKrb 1000 noCaches).step sampleKrb 1000
      (.authenticate "u@A" false (ticketReceived "A"))).destroyed =
        [⟨"FILE", "/tmp/krb5cc_1000"⟩] := by
    decide
  have hexisted : processWithDefault.caches (processWithDefault.ccDefault noCaches) ≠ none := by
    decide
  refine (hown.spared hexisted).1 ?_
  rw [hdestroyed]
  exact List.mem_singleton_self _

end Krb5Client

end Admc
