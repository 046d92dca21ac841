import Admc.Interface.Server
import Admc.Lib.Guarded
import Mathlib.Logic.Relation

/-!
# Hosts of a domain

`query_server_for_hosts` walks over the records of a DNS message by hand. A byte that is read past
the end of the message stops the model, whatever the counts and lengths in the message are.

The length of each record is compared with the end of the message, but not with what is read of
its data. So the walk stays within the message just when each record of a server that it comes to
starts its data at least six bytes before the end (`queryServerForHosts_isSome_iff`).
-/

namespace Admc

/-- The resolver library: `res_search`, and how it reads a name at an offset of a message, which it
    does within the message or not at all. Names have a length in the message, and those that are
    expanded have a text. -/
structure Resolver where
  resSearch : String → Option QByteArray
  dnSkipname : QByteArray → ℕ → Option ℕ
  dnExpand : QByteArray → ℕ → Option (ℕ × String)

/-- `NS_GET16`. -/
def getShort (msg : QByteArray) (curr : ℕ) : Option (ℕ × ℕ) := do
  let high ← msg[curr]?
  let low ← msg[curr + 1]?
  some (256 * high.toNat + low.toNat, curr + 2)

/-- `NS_GET32`. -/
def getLong (msg : QByteArray) (curr : ℕ) : Option (ℕ × ℕ) := do
  let (high, curr) ← getShort msg curr
  let (low, curr) ← getShort msg curr
  some (65536 * high + low, curr)

section
variable (res : Resolver) (msg : QByteArray)

/-- The first loop of `query_server_for_hosts`, which skips questions. -/
def skipPackets : ℕ → ℕ → Option ℕ
  | 0, curr => some curr
  | n + 1, curr =>
    if curr < msg.length then
      match res.dnSkipname msg curr with
      | none => none
      | some packetLen => skipPackets n (curr + packetLen + 4)
    else some curr

/-- The second loop of `query_server_for_hosts`, which collects hosts. -/
def collectHosts : ℕ → ℕ → List String → Option (List String)
  | 0, _, hosts => some hosts
  | n + 1, curr, hosts =>
    match res.dnExpand msg curr with
    | none => some []
    | some (serverLen, _) =>
      let curr := curr + serverLen
      if curr + 10 > msg.length then some []
      else do
        let (recordType, curr) ← getShort msg curr
        let (_, curr) ← getShort msg curr
        let (_, curr) ← getLong msg curr
        let (recordLen, curr) ← getShort msg curr
        let recordEnd := curr + recordLen
        if recordEnd > msg.length then some []
        else if recordType ≠ 33 then collectHosts n recordEnd hosts
        else do
          let (_, curr) ← getShort msg curr
          let (_, curr) ← getShort msg curr
          let (_, curr) ← getShort msg curr
          match res.dnExpand msg curr with
          | none => some []
          | some (_, host) => collectHosts n recordEnd (hosts ++ [host])

/-- `query_server_for_hosts`, which reads nothing past the end of the message or is stopped. -/
def queryServerForHosts (dname : String) : Option (List String) :=
  match res.resSearch dname with
  | none => some []
  | some msg =>
    if msg.length < 12 then some []
    else do
      let (packetCount, _) ← getShort msg 4
      let (answerCount, _) ← getShort msg 6
      match skipPackets res msg packetCount 12 with
      | none => some []
      | some curr => collectHosts res msg answerCount curr []

/-! ## Records -/

/-- The number in two bytes of a message. -/
def shortAt (i : ℕ) : ℕ := 256 * (msg.getD i 0).toNat + (msg.getD (i + 1) 0).toNat

/-- A record of a message: its type, and where its data starts and ends. -/
structure DnsRecord where
  type : ℕ
  dataStart : ℕ
  dataEnd : ℕ

/-- The record at an offset, if it is within the message. -/
def recordAt (curr : ℕ) : Option DnsRecord :=
  match res.dnExpand msg curr with
  | none => none
  | some (serverLen, _) =>
    let dataStart := curr + serverLen + 10
    let dataEnd := dataStart + shortAt msg (curr + serverLen + 8)
    if dataStart > msg.length ∨ dataEnd > msg.length then none
    else some ⟨shortAt msg (curr + serverLen), dataStart, dataEnd⟩

/-- From an offset, with so many answers left, to that after the next record. That of a server
    has a host. -/
def NextRecord (p q : ℕ × ℕ) : Prop :=
  p.1 = q.1 + 1 ∧ ∃ r, recordAt res msg p.2 = some r ∧ q.2 = r.dataEnd ∧
    (r.type = 33 → (res.dnExpand msg (r.dataStart + 6)).isSome = true)

/-- The records of servers leave so many bytes for what is read of their data. -/
def ServersFit (p : ℕ × ℕ) : Prop :=
  p.1 ≠ 0 → ∀ r, recordAt res msg p.2 = some r → r.type = 33 → r.dataStart + 6 ≤ msg.length

end

section
variable {res : Resolver} {msg : QByteArray} {curr n : ℕ} {hosts : List String}

theorem guarded_getShort : Guarded (getShort msg curr) (curr + 2 ≤ msg.length)
    (shortAt msg curr, curr + 2) := by
  refine Guarded.congr (Guarded.bind (Guarded.getElem? msg curr 0) fun _ =>
    Guarded.bind (Guarded.getElem? msg (curr + 1) 0) fun _ => Guarded.pure _) ?_
  rw [and_true]
  omega

theorem guarded_getLong : Guarded (getLong msg curr) (curr + 4 ≤ msg.length)
    (65536 * shortAt msg curr + shortAt msg (curr + 2), curr + 4) := by
  refine Guarded.congr (Guarded.bind guarded_getShort fun _ =>
    Guarded.bind guarded_getShort fun _ => Guarded.pure _) ?_
  rw [and_true]
  omega

/-- Three numbers that are read one after the other. -/
theorem bind_getShort_three (f : ℕ × ℕ → Option (List String)) :
    ((getShort msg curr).bind fun p => (getShort msg p.2).bind fun p =>
      (getShort msg p.2).bind f) =
    if curr + 6 ≤ msg.length then f (shortAt msg (curr + 4), curr + 6) else none := by
  have hguarded : Guarded ((getShort msg curr).bind fun p => (getShort msg p.2).bind fun p =>
      getShort msg p.2) (curr + 6 ≤ msg.length) (shortAt msg (curr + 4), curr + 6) := by
    refine Guarded.congr (Guarded.bind guarded_getShort fun _ => Guarded.bind guarded_getShort
      fun _ => guarded_getShort) ?_
    omega
  have hassoc : ((getShort msg curr).bind fun p => (getShort msg p.2).bind fun p =>
      (getShort msg p.2).bind f) = ((getShort msg curr).bind fun p =>
        (getShort msg p.2).bind fun p => getShort msg p.2).bind f := by
    simp only [Option.bind_assoc]
  rw [hassoc]
  split_ifs with h
  · rw [hguarded.eq_some h, Option.bind_some]
  · rw [hguarded.eq_none h, Option.bind_none]

/-- The data of the record of a server, and the rest of the loop. -/
def collectHost (res : Resolver) (msg : QByteArray) (n : ℕ) (r : DnsRecord)
    (hosts : List String) : Option (List String) :=
  match res.dnExpand msg (r.dataStart + 6) with
  | none => some []
  | some (_, host) => collectHosts res msg n r.dataEnd (hosts ++ [host])

/-- A turn of the loop: what is read is within the message just when the record of a server
    leaves six bytes for it. -/
theorem collectHosts_succ : collectHosts res msg (n + 1) curr hosts =
    match recordAt res msg curr with
    | none => some []
    | some r =>
      if r.type ≠ 33 then collectHosts res msg n r.dataEnd hosts
      else if r.dataStart + 6 ≤ msg.length then collectHost res msg n r hosts
      else none := by
  rw [collectHosts, recordAt]
  rcases res.dnExpand msg curr with - | ⟨serverLen, server⟩
  · rfl
  · dsimp only
    by_cases hstart : curr + serverLen + 10 > msg.length
    · rw [if_pos hstart, if_pos (.inl hstart)]
    · rw [if_neg hstart, guarded_getShort.eq_some (by omega), Option.bind_eq_bind,
        Option.bind_some]
      dsimp only
      rw [guarded_getShort.eq_some (by omega), Option.bind_some]
      dsimp only
      rw [guarded_getLong.eq_some (by omega), Option.bind_some]
      dsimp only
      rw [guarded_getShort.eq_some (by omega), Option.bind_some]
      dsimp only
      by_cases hend : curr + serverLen + 2 + 2 + 4 + 2 +
          shortAt msg (curr + serverLen + 2 + 2 + 4) > msg.length
      · rw [if_pos hend, if_pos (.inr hend)]
      · rw [if_neg hend, if_neg (not_or.2 ⟨hstart, hend⟩)]
        dsimp only
        by_cases htype : shortAt msg (curr + serverLen) ≠ 33
        · rw [if_pos htype, if_pos htype]
        · rw [if_neg htype, if_neg htype]
          exact bind_getShort_three _

/-- What holds of all places that are come to: of the first one, and from each next one on. -/
theorem forall_reflTransGen_iff {α : Type} {r : α → α → Prop} {P : α → Prop} {a : α} :
    (∀ p, Relation.ReflTransGen r a p → P p) ↔
      P a ∧ ∀ q, r a q → ∀ p, Relation.ReflTransGen r q p → P p := by
  constructor
  · exact fun h => ⟨h a .refl, fun q hq p hp => h p (hp.head hq)⟩
  · intro h p hp
    rcases hp.cases_head with rfl | ⟨q, hq, hp⟩
    · exact h.1
    · exact h.2 q hq p hp

theorem serversFit_iff {r : DnsRecord} (hr : recordAt res msg curr = some r) :
    ServersFit res msg (n + 1, curr) ↔ (r.type = 33 → r.dataStart + 6 ≤ msg.length) := by
  refine ⟨fun h => h (Nat.succ_ne_zero n) r hr, fun h _ r' hr' => ?_⟩
  rwa [← Option.some.inj (hr.symm.trans hr')]

theorem nextRecord_iff {r : DnsRecord} (hr : recordAt res msg curr = some r) (q : ℕ × ℕ) :
    NextRecord res msg (n + 1, curr) q ↔ q = (n, r.dataEnd) ∧
      (r.type = 33 → (res.dnExpand msg (r.dataStart + 6)).isSome = true) := by
  constructor
  · rintro ⟨hn, r', hr', hend, hhost⟩
    obtain rfl := Option.some.inj (hr.symm.trans hr')
    exact ⟨Prod.ext (Nat.succ_injective hn).symm hend, hhost⟩
  · rintro ⟨rfl, hhost⟩
    exact ⟨rfl, r, hr, rfl, hhost⟩

/-- The loop reads nothing past the end of the message just when the records of servers that it
    comes to fit. -/
theorem collectHosts_isSome_iff :
    (collectHosts res msg n curr hosts).isSome = true ↔
      ∀ p, Relation.ReflTransGen (NextRecord res msg) (n, curr) p → ServersFit res msg p := by
  induction n generalizing curr hosts with
  | zero =>
    refine iff_of_true rfl fun p hp => ?_
    rcases hp.cases_head with rfl | ⟨q, hq, -⟩
    · exact fun h => absurd rfl h
    · exact absurd hq.1 (Nat.succ_ne_zero _).symm
  | succ n ih =>
    rw [collectHosts_succ, forall_reflTransGen_iff]
    cases hr : recordAt res msg curr with
    | none =>
      refine iff_of_true rfl ⟨fun _ r h => ?_, fun q ⟨_, r, h, _⟩ => ?_⟩
      · exact absurd (hr.symm.trans h) nofun
      · exact absurd (hr.symm.trans h) nofun
    | some r =>
      simp only [serversFit_iff hr, nextRecord_iff hr, and_imp, forall_eq]
      by_cases htype : r.type = 33
      · simp only [htype, ne_eq, not_true_eq_false, if_false, forall_true_left]
        split_ifs with hle
        · rw [collectHost]
          rcases res.dnExpand msg (r.dataStart + 6) with - | ⟨len, host⟩
          · exact iff_of_true rfl ⟨hle, nofun⟩
          · exact ih.trans ⟨fun h => ⟨hle, fun _ => h⟩, fun h => h.2 rfl⟩
        · exact iff_of_false Bool.false_ne_true fun h => hle h.1
      · simp only [htype, ne_eq, not_false_eq_true, if_true, false_imp_iff, true_and,
          forall_true_left]
        exact ih

end

/-- Nothing is read past the end of a message just when the records of servers that are come to,
    from the first one after the questions, fit into it. -/
theorem queryServerForHosts_isSome_iff (res : Resolver) (dname : String) :
    (queryServerForHosts res dname).isSome = true ↔
      ∀ msg curr p, res.resSearch dname = some msg → 12 ≤ msg.length →
        skipPackets res msg (shortAt msg 4) 12 = some curr →
        Relation.ReflTransGen (NextRecord res msg) (shortAt msg 6, curr) p →
        ServersFit res msg p := by
  rw [queryServerForHosts]
  cases hmsg : res.resSearch dname with
  | none => exact iff_of_true rfl fun msg curr p h => absurd h nofun
  | some msg =>
    dsimp only
    by_cases hlength : msg.length < 12
    · rw [if_pos hlength]
      refine iff_of_true rfl fun msg' curr p h hle => ?_
      obtain rfl := Option.some.inj h
      exact absurd hle (Nat.not_le.2 hlength)
    · rw [if_neg hlength, guarded_getShort.eq_some (by omega), Option.bind_eq_bind,
        Option.bind_some, guarded_getShort.eq_some (by omega), Option.bind_some]
      dsimp only
      cases hskip : skipPackets res msg (shortAt msg 4) 12 with
      | none =>
        refine iff_of_true rfl fun msg' curr p h _ hcurr => ?_
        obtain rfl := Option.some.inj h
        exact absurd (hskip.symm.trans hcurr) nofun
      | some curr =>
        refine collectHosts_isSome_iff.trans ⟨fun h msg' curr' p hmsg' _ hcurr => ?_, fun h p => ?_⟩
        · obtain rfl := Option.some.inj hmsg'
          obtain rfl := Option.some.inj (hskip.symm.trans hcurr)
          exact h p
        · exact h msg curr p rfl (Nat.not_lt.1 hlength) hskip

/-! ## A record without data -/

/-- The length of a name in a message, of labels or up to a pointer to others. -/
def skipName (msg : QByteArray) : ℕ → ℕ → Option ℕ
  | 0, _ => none
  | n + 1, curr => do
    let len ← msg[curr]?
    if len = 0 then some 1
    else if 192 ≤ len then msg[curr + 1]?.map fun _ => 2
    else if len < 64 then
      (skipName msg n (curr + 1 + len.toNat)).map (· + (1 + len.toNat))
    else none

/-- The labels of a name in a message. -/
def expandName (msg : QByteArray) : ℕ → ℕ → Option (List String)
  | 0, _ => none
  | n + 1, curr => do
    let len ← msg[curr]?
    if len = 0 then some []
    else if 192 ≤ len then
      let low ← msg[curr + 1]?
      expandName msg n (256 * (len.toNat - 192) + low.toNat)
    else if len < 64 then
      let label := (msg.drop (curr + 1)).take len.toNat
      (expandName msg n (curr + 1 + len.toNat)).map fun labels =>
        .ofList (label.map fun byte => .ofNat byte.toNat) :: labels
    else none

/-- A resolver that gets a message, and reads names in it. -/
def Resolver.ofMessage (msg : QByteArray) : Resolver where
  resSearch _ := some msg
  dnSkipname msg curr := skipName msg 128 curr
  dnExpand msg curr := do
    let len ← skipName msg 128 curr
    let labels ← expandName msg 128 curr
    some (len, ".".intercalate labels)

/-- An answer with a record of a server that has no data. -/
def emptyServer : QByteArray :=
  -- the header, with a question and an answer
  [0x12, 0x34, 0x81, 0x80, 0, 1, 0, 1, 0, 0, 0, 0] ++
  -- the question: _ldap._tcp.alt
  [5, 0x5f, 0x6c, 0x64, 0x61, 0x70, 4, 0x5f, 0x74, 0x63, 0x70, 3, 0x61, 0x6c, 0x74, 0,
    0, 33, 0, 1] ++
  -- the answer: the same name, and no bytes of data
  [0xc0, 12, 0, 33, 0, 1, 0, 0, 0, 60, 0, 0]

/-- There is an answer that is read past its end. -/
theorem not_queryServerForHosts_emptyServer :
    ¬∀ (res : Resolver) (dname : String), (queryServerForHosts res dname).isSome = true := by
  intro h
  have hstopped : queryServerForHosts (.ofMessage emptyServer) "_ldap._tcp.alt" = none := by
    decide +kernel
  have hsome := h (.ofMessage emptyServer) "_ldap._tcp.alt"
  rw [hstopped] at hsome
  exact Bool.false_ne_true hsome

end Admc
