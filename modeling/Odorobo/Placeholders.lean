import Odorobo.Expiry

/-! Placeholders and the placements they stand for. A create pushes one of each, a
discovered actor takes a placeholder, but the handlers that drop placements leave
the placeholders where they are, expiry of the whole list apart. -/

namespace Odorobo.SchedulerActor

def placeholders (dataCache : AHashMap Ulid (List CachedVMActor)) (vmid : Ulid) : Nat :=
  (actorsOf dataCache vmid).countP fun entry => entry.actorRef.isNone

/-! What the cache functions do to the number of placeholders. -/

theorem countP_replaceFirst_le {α : Type} (p q : α → Bool) (x : α) (entries : List α)
    (h : q x = false) : (replaceFirst p x entries).countP q ≤ entries.countP q := by
  induction entries with
  | nil => exact le_rfl
  | cons entry entries ih =>
    rw [replaceFirst]
    split
    · rw [List.countP_cons_of_neg (by simp [h]), List.countP_cons]
      omega
    · rw [List.countP_cons, List.countP_cons]
      omega

theorem countP_updateCachedVmEntry_le (entries : List CachedVMActor)
    (actorRef : RemoteActorRef .vm) :
    (updateCachedVmEntry entries actorRef.id ⟨some actorRef⟩).countP
        (fun entry => entry.actorRef.isNone) ≤
      entries.countP fun entry => entry.actorRef.isNone := by
  unfold updateCachedVmEntry
  split
  · exact countP_replaceFirst_le _ _ _ _ rfl
  · split
    · exact countP_replaceFirst_le _ _ _ _ rfl
    · rw [List.countP_append]
      exact le_rfl

section Tables

variable (dataCache : AHashMap Ulid (List CachedVMActor)) (key vmid : Ulid)

theorem placeholders_updated (actorRef : RemoteActorRef .vm) :
    placeholders (dataCache.upsert key [] fun entries =>
        updateCachedVmEntry entries actorRef.id ⟨some actorRef⟩) vmid ≤
      placeholders dataCache vmid := by
  unfold placeholders actorsOf
  rw [AHashMap.get_upsert]
  by_cases hvmid : vmid = key
  · rw [if_pos hvmid, Option.getD_some, hvmid]
    exact countP_updateCachedVmEntry_le _ actorRef
  · rw [if_neg hvmid]

/-- The loss of an actor takes no placeholder. -/
theorem placeholders_removed (id : ActorId) :
    placeholders (removeVmActor id dataCache) vmid = placeholders dataCache vmid := by
  unfold placeholders
  rw [actorsOf_removeVmActor, List.countP_filter]
  apply List.countP_congr
  intro entry _
  unfold isActor
  cases entry.actorRef <;> simp

theorem placeholders_pushed :
    placeholders (dataCache.upsert key [] fun entries => entries ++ [⟨none⟩]) vmid =
      if vmid = key then placeholders dataCache vmid + 1 else placeholders dataCache vmid := by
  unfold placeholders actorsOf
  rw [AHashMap.get_upsert]
  by_cases hvmid : vmid = key
  · rw [if_pos hvmid, if_pos hvmid, Option.getD_some, List.countP_append, hvmid]
    rfl
  · rw [if_neg hvmid, if_neg hvmid]

theorem placeholders_erase :
    placeholders (dataCache.erase key) vmid =
      if vmid = key then 0 else placeholders dataCache vmid := by
  unfold placeholders actorsOf
  rw [AHashMap.get_erase]
  split
  · rfl
  · rfl

end Tables

theorem placeholders_congr {dataCache dataCache' : AHashMap Ulid (List CachedVMActor)}
    {vmid : Ulid} (h : dataCache'.get vmid = dataCache.get vmid) :
    placeholders dataCache' vmid = placeholders dataCache vmid := by
  rw [placeholders, actorsOf, h, placeholders, actorsOf]

/-- The placeholders of one VM are at most its placements. -/
def BackedAt (dataCache : AHashMap Ulid (List CachedVMActor))
    (placements : AHashMap Ulid (List VmPlacement)) (vmid : Ulid) : Prop :=
  placeholders dataCache vmid ≤ (entriesOf placements vmid).length

section BackedAt

variable {dataCache : AHashMap Ulid (List CachedVMActor)}
  {placements : AHashMap Ulid (List VmPlacement)} {vmid : Ulid}

/-- A dispatch pushes one of each. -/
theorem BackedAt.push (h : BackedAt dataCache placements vmid) (key : Ulid) (entry : VmPlacement) :
    BackedAt (dataCache.upsert key [] fun entries => entries ++ [⟨none⟩])
      (placements.upsert key [] fun entries => entries ++ [entry]) vmid := by
  unfold BackedAt at h ⊢
  rw [placeholders_pushed, entriesOf_upsert]
  split
  · rw [List.length_append]
    exact Nat.succ_le_succ h
  · exact h

theorem BackedAt.erase (h : BackedAt dataCache placements vmid) (key : Ulid) :
    BackedAt (dataCache.erase key) (placements.erase key) vmid := by
  unfold BackedAt at h ⊢
  rw [placeholders_erase, entriesOf_erase]
  split
  · exact le_rfl
  · exact h

theorem BackedAt.clear (h : BackedAt dataCache placements vmid) (key : Ulid) :
    BackedAt (dataCache.erase key) (placements.insert key []) vmid := by
  unfold BackedAt at h ⊢
  rw [placeholders_erase, entriesOf_insert]
  split
  · exact le_rfl
  · exact h

theorem BackedAt.recreate {s : SchedulerActor} (h : BackedAt s.vmDataCache s.vmPlacements vmid)
    (env : Ulid → DispatchEnv) (vm : Ulid × VmManifest) :
    BackedAt (s.recreate env vm).vmDataCache (s.recreate env vm).vmPlacements vmid := by
  rw [recreate_eq]
  split
  · exact h
  · next agent _ =>
    have hpushed := h.push vm.1 (pendingPlacement agent.id (env vm.1).now)
    split
    · exact hpushed
    · exact hpushed.clear vm.1

/-- Expiry that leaves a placement takes no placeholder. -/
theorem placeholders_expired {s : SchedulerActor} {now : Instant}
    (h : (s.expireUnresolved now).placementsOf vmid ≠ []) :
    placeholders (s.expireUnresolved now).vmDataCache vmid = placeholders s.vmDataCache vmid := by
  apply placeholders_congr
  rw [expireUnresolved, invalidatePendingResources]
  dsimp only
  rw [get_expired, if_neg]
  rintro ⟨hempty, _⟩
  obtain ⟨entries, hget, hnone⟩ := (Option.any_eq_true _ _).mp hempty
  apply h
  rw [placementsOf_expired, placementsOf, hget]
  exact List.isEmpty_iff.mp hnone

theorem placeholders_expired_le (s : SchedulerActor) (now : Instant) :
    placeholders (s.expireUnresolved now).vmDataCache vmid ≤ placeholders s.vmDataCache vmid := by
  have hget : (s.expireUnresolved now).vmDataCache.get vmid = _ :=
    get_expired s.vmDataCache vmid now s.vmPlacements
  unfold placeholders actorsOf
  rw [hget]
  split
  · exact Nat.zero_le _
  · exact le_rfl

/-- Of a VM without a discovered actor only placeholders are cached. -/
theorem all_isNone_of_undiscovered {entries : List CachedVMActor}
    (hget : dataCache.get vmid = some entries) (h : isDiscovered dataCache vmid = false) :
    entries.all (fun entry => entry.actorRef.isNone) = true := by
  rw [isDiscovered, hget, Option.any_some, List.any_eq_false] at h
  rw [List.all_eq_true]
  intro entry hmem
  simpa using h entry hmem

/-- Only a VM without a discovered actor loses its last placement to expiry. -/
theorem undiscovered_of_expired {s : SchedulerActor} {now : Instant}
    (hplaced : s.placementsOf vmid ≠ []) (hempty : (s.expireUnresolved now).placementsOf vmid = []) :
    isDiscovered s.vmDataCache vmid = false := by
  rw [placementsOf_expired, List.filter_eq_nil_iff] at hempty
  obtain ⟨first, rest, hentries⟩ := List.exists_cons_of_ne_nil hplaced
  have hexpires := hempty first (hentries ▸ List.mem_cons_self)
  cases hdiscovered : isDiscovered s.vmDataCache vmid with
  | false => rfl
  | true =>
    rw [staysUnresolved, hdiscovered, Bool.or_true, Bool.true_or] at hexpires
    exact absurd rfl hexpires

/-- Expiry that takes the last placement takes the whole list. -/
theorem placeholders_expired_last {s : SchedulerActor} {now : Instant}
    (hplaced : s.placementsOf vmid ≠ []) (hempty : (s.expireUnresolved now).placementsOf vmid = []) :
    placeholders (s.expireUnresolved now).vmDataCache vmid = 0 := by
  have hundiscovered := undiscovered_of_expired hplaced hempty
  have hget : (s.expireUnresolved now).vmDataCache.get vmid = _ :=
    get_expired s.vmDataCache vmid now s.vmPlacements
  have hnone : (s.expireUnresolved now).vmDataCache.get vmid = none := by
    rw [hget]
    split
    · rfl
    · next hkept =>
      cases hplacements : s.vmPlacements.get vmid with
      | none =>
        rw [placementsOf, hplacements] at hplaced
        exact absurd rfl hplaced
      | some entries =>
        cases hcached : s.vmDataCache.get vmid with
        | none => rfl
        | some cached =>
          rw [placementsOf_expired, placementsOf, hplacements, Option.getD_some] at hempty
          refine absurd ⟨?_, ?_⟩ hkept
          · rw [hplacements, Option.any_some, hempty, List.isEmpty_nil]
          · rw [hcached, Option.any_some]
            exact all_isNone_of_undiscovered hcached hundiscovered
  rw [placeholders, actorsOf, hnone]
  rfl

theorem BackedAt.expire {s : SchedulerActor} {now : Instant}
    (h : BackedAt s.vmDataCache s.vmPlacements vmid)
    (hempty : (s.expireUnresolved now).placementsOf vmid = []) :
    BackedAt (s.expireUnresolved now).vmDataCache (s.expireUnresolved now).vmPlacements vmid := by
  have hbound : placeholders (s.expireUnresolved now).vmDataCache vmid ≤ 0 := by
    by_cases hplaced : s.placementsOf vmid = []
    · -- Without placements there were no placeholders, and expiry adds none.
      rw [BackedAt, ← placementsOf_eq, hplaced] at h
      exact (placeholders_expired_le s now).trans h
    · exact (placeholders_expired_last hplaced hempty).le
  rw [BackedAt]
  exact hbound.trans (Nat.zero_le _)

end BackedAt

/-! What an event leaves of the placements of a VM. -/

section Leaves

variable (s : SchedulerActor)

def outlivesAgent (id : ActorId) (vmid : Ulid) (entry : VmPlacement) : Bool :=
  entry.agentId ≠ id || vmid ∈ s.reachableVmids id

def outlivesVmActor (id : ActorId) (vmid : Ulid) (entry : VmPlacement) : Bool :=
  s.vmActoridUlidMap.get id ≠ some vmid || isDiscovered (removeVmActor id s.vmDataCache) vmid ||
    survivesVmLoss s.agentVmIndex vmid entry

def outlivesUpdate (msg : AgentUpdated) (now : Instant) (vmid : Ulid) (entry : VmPlacement) :
    Bool :=
  match msg.update with
  | .full _ status => (reconcileEntry msg.actorId now (status.vms.contains vmid) entry).isSome
  | .delta _ _ removed _ _ => !removed.contains vmid || survivesRemoval msg.actorId entry

/-- Whether the event leaves a placement, by the test of its handler. A stop and a
create that is taken back drop the placeholders as well and are not meant. -/
def leaves (event : Event) (vmid : Ulid) (entry : VmPlacement) : Bool :=
  match event with
  | .vmUpdaterStopped id => s.outlivesVmActor id vmid entry
  | .agentUpdaterStopped id => s.outlivesAgent id vmid entry
  | .linkDied id =>
    match s.actorKinds.get id with
    | some .agent => s.outlivesAgent id vmid entry
    | some .vm => s.outlivesVmActor id vmid entry
    | none => true
  | .agentUpdated msg now => !s.accepts msg || outlivesUpdate msg now vmid entry
  | .reconcileVmPlacements now _ => staysUnresolved now (isDiscovered s.vmDataCache vmid) entry
  | _ => true

def isTick : Event → Bool
  | .reconcileVmPlacements _ _ => true
  | _ => false

/-- Of every VM that it takes placements from, the event leaves one for each
placeholder, or else it is a tick that leaves none. -/
def LeavesBacked (action : Action) : Prop :=
  ∀ event, action = .handle event → ∀ vmid,
    (∃ entry ∈ s.placementsOf vmid, s.leaves event vmid entry = false) →
      placeholders s.vmDataCache vmid ≤ (s.placementsOf vmid).countP (s.leaves event vmid) ∨
        (isTick event = true ∧ (s.placementsOf vmid).countP (s.leaves event vmid) = 0)

end Leaves

/-- Every placeholder stands for a placement. -/
def Backed (s : SchedulerActor) : Prop :=
  ∀ vmid, placeholders s.vmDataCache vmid ≤ (s.placementsOf vmid).length

/-! One event and one VM. -/

/-- The ways in which an event changes the two lists of a VM: it drops no placement,
it drops placements and no placeholder, or it is a tick that drops all. -/
inductive Balance (s t : SchedulerActor) (event : Event) (vmid : Ulid) : Prop where
  | kept : (∀ entry ∈ s.placementsOf vmid, s.leaves event vmid entry = true) →
      (placeholders s.vmDataCache vmid ≤ (s.placementsOf vmid).length →
        placeholders t.vmDataCache vmid ≤ (t.placementsOf vmid).length) → Balance s t event vmid
  | dropped : placeholders t.vmDataCache vmid = placeholders s.vmDataCache vmid →
      (t.placementsOf vmid).length = (s.placementsOf vmid).countP (s.leaves event vmid) →
      ¬ (isTick event = true ∧ (s.placementsOf vmid).countP (s.leaves event vmid) = 0) →
      Balance s t event vmid
  | expired : isTick event = true → (s.placementsOf vmid).countP (s.leaves event vmid) = 0 →
      (placeholders s.vmDataCache vmid ≤ (s.placementsOf vmid).length →
        placeholders t.vmDataCache vmid ≤ (t.placementsOf vmid).length) → Balance s t event vmid

theorem Balance.backed_iff {s t : SchedulerActor} {event : Event} {vmid : Ulid}
    (balance : Balance s t event vmid)
    (h : placeholders s.vmDataCache vmid ≤ (s.placementsOf vmid).length) :
    placeholders t.vmDataCache vmid ≤ (t.placementsOf vmid).length ↔
      ((∃ entry ∈ s.placementsOf vmid, s.leaves event vmid entry = false) →
        placeholders s.vmDataCache vmid ≤ (s.placementsOf vmid).countP (s.leaves event vmid) ∨
          (isTick event = true ∧ (s.placementsOf vmid).countP (s.leaves event vmid) = 0)) := by
  cases balance with
  | kept hleaves hkept =>
    refine iff_of_true (hkept h) ?_
    rintro ⟨entry, hmem, hdrops⟩
    rw [hleaves entry hmem] at hdrops
    cases hdrops
  | dropped hsame hleft hnot =>
    rw [hsame, hleft]
    constructor
    · exact fun hbacked _ => Or.inl hbacked
    · intro hcond
      by_cases hdrops : ∃ entry ∈ s.placementsOf vmid, s.leaves event vmid entry = false
      · exact (hcond hdrops).resolve_right hnot
      · have hall : (s.placementsOf vmid).countP (s.leaves event vmid) =
            (s.placementsOf vmid).length := by
          rw [List.countP_eq_length]
          intro entry hmem
          by_contra hfalse
          exact hdrops ⟨entry, hmem, eq_false_of_ne_true hfalse⟩
        rw [hall]
        exact h
  | expired htick hnone hkept => exact iff_of_true (hkept h) fun _ => Or.inr ⟨htick, hnone⟩

/-- An event that touches neither list. -/
theorem Balance.same {s t : SchedulerActor} {event : Event} {vmid : Ulid}
    (hleaves : ∀ entry ∈ s.placementsOf vmid, s.leaves event vmid entry = true)
    (hplacements : t.placementsOf vmid = s.placementsOf vmid)
    (hcache : t.vmDataCache.get vmid = s.vmDataCache.get vmid) : Balance s t event vmid := by
  refine .kept hleaves fun h => ?_
  rw [hplacements, placeholders_congr hcache]
  exact h

section Handlers

variable (s : SchedulerActor) (vmid : Ulid)

theorem length_confirmOrPush (agentId : ActorId) (now : Instant) (entries : List VmPlacement) :
    entries.length ≤ (confirmOrPush agentId now entries).length := by
  induction entries with
  | nil => exact Nat.zero_le _
  | cons entry entries ih =>
    rw [confirmOrPush]
    split
    · exact le_rfl
    · exact Nat.succ_le_succ ih

theorem length_foldl_confirmOrPush (now : ActorId → Instant) (agents : List ActorId)
    (entries : List VmPlacement) :
    entries.length ≤ (agents.foldl
      (fun entries agentId => confirmOrPush agentId (now agentId) entries) entries).length := by
  induction agents generalizing entries with
  | nil => exact le_rfl
  | cons agentId agents ih => exact (length_confirmOrPush agentId _ entries).trans (ih _)

theorem balance_vmUpdated (actorRef : RemoteActorRef .vm) (data : GetVMInfoReply)
    (now : ActorId → Instant) :
    Balance s (s.vmUpdated actorRef data now) (.vmUpdated actorRef data now) vmid := by
  refine .kept (fun _ _ => rfl) fun h => ?_
  have hfewer := placeholders_updated s.vmDataCache data.vmid vmid actorRef
  have hmore : (s.placementsOf vmid).length ≤
      (entriesOf (s.reportedPlacements data now) vmid).length := by
    rw [entriesOf_reportedPlacements]
    split
    · exact length_foldl_confirmOrPush now _ _
    · exact le_rfl
  rw [vmUpdated_eq]
  exact (hfewer.trans h).trans hmore

theorem entriesOf_placementsAfterVmLoss (id : ActorId) :
    entriesOf (s.placementsAfterVmLoss id) vmid =
      (s.placementsOf vmid).filter (s.outlivesVmActor id vmid) := by
  have hkept : (∀ entry, s.outlivesVmActor id vmid entry = true) →
      (s.placementsOf vmid).filter (s.outlivesVmActor id vmid) = s.placementsOf vmid :=
    fun hall => List.filter_eq_self.mpr fun entry _ => hall entry
  unfold placementsAfterVmLoss
  cases hmapped : s.vmActoridUlidMap.get id with
  | none =>
    refine (hkept fun entry => ?_).symm
    simp [outlivesVmActor, hmapped]
  | some mapped =>
    dsimp only
    by_cases hvmid : vmid = mapped
    · subst hvmid
      split
      · next hdiscovered =>
        refine (hkept fun entry => ?_).symm
        rw [outlivesVmActor, hdiscovered, Bool.or_true, Bool.true_or]
      · next hlost =>
        have hsame : s.outlivesVmActor id vmid = survivesVmLoss s.agentVmIndex vmid := by
          funext entry
          simp [outlivesVmActor, hmapped, hlost]
        rw [entriesOf_modify, if_pos rfl, hsame]
        rfl
    · have hother : ∀ entry, s.outlivesVmActor id vmid entry = true := by
        intro entry
        simp [outlivesVmActor, hmapped, Ne.symm hvmid]
      rw [hkept hother]
      split
      · rfl
      · rw [entriesOf_modify, if_neg hvmid]
        rfl

theorem balance_vmLost (event : Event) (kinds : AHashMap ActorId CachedActorKind) (id : ActorId)
    (hleaves : s.leaves event vmid = s.outlivesVmActor id vmid) (htick : isTick event = false) :
    Balance s (cleanupVmActor { s with actorKinds := kinds } id) event vmid := by
  have hentries := s.entriesOf_placementsAfterVmLoss vmid id
  rw [cleanupVmActor_eq]
  refine .dropped (placeholders_removed s.vmDataCache vmid id) ?_ ?_
  · rw [hleaves, List.countP_eq_length_filter, ← hentries]
    rfl
  · simp [htick]

theorem balance_agentLost (event : Event) (kinds : AHashMap ActorId CachedActorKind) (id : ActorId)
    (hleaves : s.leaves event vmid = s.outlivesAgent id vmid) (htick : isTick event = false) :
    Balance s (cleanupAgentActor { s with actorKinds := kinds } id) event vmid := by
  refine .dropped rfl ?_ ?_
  · rw [hleaves, List.countP_eq_length_filter, placementsOf_eq, cleanupAgentActor,
      entriesOf_removeAgentPlacements]
    rfl
  · simp [htick]

theorem leaves_accepted (msg : AgentUpdated) (now : Instant) (haccepts : s.accepts msg = true)
    (entry : VmPlacement) :
    s.leaves (.agentUpdated msg now) vmid entry = outlivesUpdate msg now vmid entry := by
  rw [leaves, haccepts]
  rfl

/-- A snapshot that lists a VM drops none of its placements, one that does not adds none. -/
theorem balance_full (msg : AgentUpdated) (now : Instant) (revision : U64) (status : AgentStatus)
    (hupdate : msg.update = .full revision status) (haccepts : s.accepts msg = true) :
    Balance s (s.acceptFull msg revision status now) (.agentUpdated msg now) vmid := by
  have hleaves : ∀ entry, s.leaves (.agentUpdated msg now) vmid entry =
      (reconcileEntry msg.actorId now (status.vms.contains vmid) entry).isSome := by
    intro entry
    rw [s.leaves_accepted vmid msg now haccepts, outlivesUpdate, hupdate]
  have hentries := entriesOf_reconcileAgentPlacements msg.actorId status now s.vmManifests
    s.vmPlacements vmid
  by_cases hlisted : vmid ∈ status.vms
  · have hall : ∀ entry, (reconcileEntry msg.actorId now true entry).isSome = true := by
      intro entry
      unfold reconcileEntry
      split
      · rfl
      · rfl
    refine .kept ?_ fun h => ?_
    · intro entry _
      rw [hleaves, List.contains_iff_mem.mpr hlisted]
      exact hall entry
    · have hlength : ∀ entries : List VmPlacement,
          (entries.filterMap (reconcileEntry msg.actorId now true)).length = entries.length := by
        intro entries
        rw [List.length_filterMap_eq_countP, List.countP_eq_length]
        exact fun entry _ => hall entry
      refine h.trans ?_
      rw [placementsOf_eq, placementsOf_eq, acceptFull, hentries]
      dsimp only
      rw [decide_eq_true hlisted, hlength]
      split
      · rw [List.length_append]
        exact Nat.le_add_right _ _
      · exact le_rfl
  · refine .dropped rfl ?_ (by simp [isTick])
    rw [placementsOf_eq, placementsOf_eq, acceptFull, hentries]
    dsimp only
    rw [if_neg fun hmissing => hlisted hmissing.1, List.length_filterMap_eq_countP,
      decide_eq_false hlisted]
    apply List.countP_congr
    intro entry _
    rw [hleaves, List.contains_eq_mem, decide_eq_false hlisted]

theorem balance_delta (msg : AgentUpdated) (now : Instant) (cached : CachedAgentActor)
    {revision : U64} {added removed : List Ulid} {usedVcpus : U32} {usedRam : U64}
    (hupdate : msg.update = .delta revision added removed usedVcpus usedRam)
    (haccepts : s.accepts msg = true) :
    Balance s (s.acceptDelta msg cached added removed now) (.agentUpdated msg now) vmid := by
  have hleaves : ∀ entry, s.leaves (.agentUpdated msg now) vmid entry =
      (!removed.contains vmid || survivesRemoval msg.actorId entry) := by
    intro entry
    rw [s.leaves_accepted vmid msg now haccepts, outlivesUpdate, hupdate]
  have hentries := entriesOf_reconcileAgentDelta msg.actorId added removed now s.vmManifests
    s.vmPlacements vmid
  have hdisjoint : ∀ other ∈ added, other ∉ removed := by
    have hmsg := msg.disjoint
    rw [hupdate] at hmsg
    exact hmsg
  by_cases hremoved : vmid ∈ removed
  · have hadded : vmid ∉ added := fun hadded => hdisjoint vmid hadded hremoved
    refine .dropped rfl ?_ (by simp [isTick])
    rw [placementsOf_eq, placementsOf_eq, acceptDelta, hentries]
    dsimp only
    rw [if_pos hremoved, if_neg fun hconfirmed => hadded hconfirmed.1,
      ← List.countP_eq_length_filter]
    apply List.countP_congr
    intro entry _
    rw [hleaves]
    simp [hremoved]
  · refine .kept ?_ fun h => ?_
    · intro entry _
      rw [hleaves]
      simp [hremoved]
    · refine h.trans ?_
      rw [placementsOf_eq, placementsOf_eq, acceptDelta, hentries]
      dsimp only
      rw [if_neg hremoved]
      split
      · exact length_confirmOrPush _ now _
      · exact le_rfl

theorem balance_agentUpdated (msg : AgentUpdated) (now : Instant) :
    Balance s (s.agentUpdated msg now) (.agentUpdated msg now) vmid := by
  cases haccepts : s.accepts msg with
  | false =>
    rw [agentUpdated_rejected haccepts]
    refine .same ?_ rfl rfl
    intro entry _
    rw [leaves, haccepts]
    rfl
  | true =>
    obtain ⟨revision, status, hupdate, heq⟩ | ⟨cached, _, added, removed, _, _, hupdate, _, heq⟩ :=
      accepted_cases haccepts now
    · rw [heq]
      exact s.balance_full vmid msg now revision status hupdate haccepts
    · rw [heq]
      exact s.balance_delta vmid msg now cached hupdate haccepts

theorem balance_tick (now : Instant) (env : Ulid → DispatchEnv) :
    Balance s (s.reconcileVmPlacements now env) (.reconcileVmPlacements now env) vmid := by
  have hleft := s.placementsOf_expired now vmid
  have hcount : (s.placementsOf vmid).countP (s.leaves (.reconcileVmPlacements now env) vmid) =
      ((s.expireUnresolved now).placementsOf vmid).length := by
    rw [hleft, List.countP_eq_length_filter]
    rfl
  by_cases hempty : (s.expireUnresolved now).placementsOf vmid = []
  · have hnone : (s.placementsOf vmid).countP (s.leaves (.reconcileVmPlacements now env) vmid) =
        0 := by
      rw [hcount, hempty]
      rfl
    refine .expired rfl hnone fun h => ?_
    exact (reconcile_rule (P := fun t => BackedAt t.vmDataCache t.vmPlacements vmid) s now env
      (BackedAt.expire h hempty) fun t vm ht _ => ht.recreate env vm).1
  · obtain ⟨hsame, hcache⟩ := (replaced_reconcile s now env vmid).placed hempty
    refine .dropped ?_ ?_ ?_
    · rw [placeholders_congr hcache, placeholders_expired hempty]
    · rw [hsame, hcount]
    · rw [hcount, List.length_eq_zero_iff]
      exact fun hboth => hempty hboth.2

theorem balance_createVM (msg : CreateVM) (env : CreateEnv) :
    Balance s (s.createVM msg env).2 (.createVM msg env) vmid := by
  cases hknown : s.vmManifests.get msg.vmid with
  | some existing =>
    rw [createVM_of_known env hknown]
    exact .same (fun _ _ => rfl) rfl rfl
  | none =>
    rw [createVM_of_unknown env hknown]
    cases s.bestAgent msg with
    | none => exact .same (fun _ _ => rfl) rfl rfl
    | some agent =>
      refine .kept (fun _ _ => rfl) fun h => ?_
      have hreserved := BackedAt.push h msg.vmid (pendingPlacement agent.id env.now)
      apply settleCreate_rule (P := fun t => BackedAt t.vmDataCache t.vmPlacements vmid)
      · exact hreserved
      · exact fun _ _ _ _ => hreserved
      · exact hreserved.erase msg.vmid

theorem balance_stopVM (event : Event) (stopped : Ulid) (env : StopEnv)
    (hevent : event = .deleteVM stopped env ∨ event = .shutdownVM stopped env) :
    Balance s (s.stopVM stopped env).2 event vmid := by
  have hleaves : ∀ entry ∈ s.placementsOf vmid, s.leaves event vmid entry = true := by
    intro entry _
    obtain rfl | rfl := hevent
    · rfl
    · rfl
  unfold stopVM
  split
  · exact .same hleaves rfl rfl
  · exact .same hleaves rfl rfl
  · split
    · exact .same hleaves rfl rfl
    · exact .kept hleaves fun h => BackedAt.erase h stopped

theorem balance_handle (event : Event) : Balance s (s.handle event) event vmid := by
  cases event with
  | vmActorDiscovered actorRef env =>
    refine .same (fun _ _ => rfl) ?_ ?_
    all_goals
      rw [handle, SchedulerActor.vmActorDiscovered]
      split
      · rfl
      · dsimp only
        split <;> rfl
  | agentActorDiscovered actorRef env =>
    refine .same (fun _ _ => rfl) ?_ ?_
    all_goals
      rw [handle, SchedulerActor.agentActorDiscovered]
      split
      · rfl
      · dsimp only
        split <;> rfl
  | vmUpdated actorRef data now => exact s.balance_vmUpdated vmid actorRef data now
  | vmUpdaterStopped id => exact s.balance_vmLost vmid _ _ id rfl rfl
  | agentUpdated msg now => exact s.balance_agentUpdated vmid msg now
  | agentUpdaterStopped id => exact s.balance_agentLost vmid _ _ id rfl rfl
  | reconcileVmPlacements now env => exact s.balance_tick vmid now env
  | createVM msg env => exact s.balance_createVM vmid msg env
  | deleteVM stopped env => exact s.balance_stopVM vmid _ stopped env (Or.inl rfl)
  | shutdownVM stopped env => exact s.balance_stopVM vmid _ stopped env (Or.inr rfl)
  | linkDied id =>
    cases hkind : s.actorKinds.get id with
    | none =>
      rw [handle, onLinkDied, hkind]
      refine .same ?_ rfl rfl
      intro entry _
      rw [leaves, hkind]
    | some kind =>
      rw [handle, onLinkDied, hkind]
      cases kind with
      | agent =>
        refine s.balance_agentLost vmid _ _ id ?_ rfl
        funext entry
        rw [leaves, hkind]
      | vm =>
        refine s.balance_vmLost vmid _ _ id ?_ rfl
        funext entry
        rw [leaves, hkind]
  | query => exact .same (fun _ _ => rfl) rfl rfl

end Handlers

theorem backed_step_iff {s t : SchedulerActor} {action : Action} (h : Backed s)
    (hstep : Step s action t) : Backed t ↔ s.LeavesBacked action := by
  cases action with
  | handle event =>
    obtain rfl : t = s.handle event := hstep
    have hvm := fun vmid => (s.balance_handle vmid event).backed_iff (h vmid)
    constructor
    · intro hbacked event' heq vmid
      obtain rfl := Action.handle.inj heq
      exact (hvm vmid).mp (hbacked vmid)
    · intro hleaves vmid
      exact (hvm vmid).mpr (hleaves event rfl vmid)
  | rehash =>
    have hr : Rehash s t := hstep
    refine iff_of_true ?_ fun event heq => by cases heq
    intro vmid
    rw [placeholders_congr (congrFun hr.vmDataCache vmid), placementsOf, hr.vmPlacements]
    exact h vmid

theorem backed_onStart : Backed onStart := fun _ => le_rfl

/-- Every placeholder stands for a placement in every state of a run exactly when no
step of the run takes placements and leaves fewer than there are placeholders. -/
theorem placeholders_backed_iff (run : List (Action × SchedulerActor))
    (hrun : Transition.IsRun Step onStart run) :
    Transition.AllStates Backed onStart run ↔
      Transition.AllSteps LeavesBacked onStart run := by
  constructor
  · intro hbacked
    refine Transition.allSteps_of_states ?_ onStart run hrun hbacked
    intro s action t hs hleaves hstep ht
    exact hleaves ((backed_step_iff hs hstep).mp ht)
  · intro hleaves
    refine Transition.allStates_of_step ?_ onStart run backed_onStart hrun hleaves
    intro s action t hs haction hstep
    exact (backed_step_iff hs hstep).mpr haction

/-- A VM that is not cached has no placeholder. -/
theorem backed_of_cached {s : SchedulerActor}
    (h : (s.vmDataCache.toList.all fun e =>
      decide (placeholders s.vmDataCache e.1 ≤ (s.placementsOf e.1).length)) = true) :
    Backed s := by
  intro vmid
  cases hget : s.vmDataCache.get vmid with
  | none =>
    rw [placeholders, actorsOf, hget]
    exact Nat.zero_le _
  | some entries =>
    have hmem : (vmid, entries) ∈ s.vmDataCache.toList := (AHashMap.mem_toList _ _ _).mpr hget
    exact of_decide_eq_true (List.all_eq_true.mp h _ hmem)

/-- A reservation that expires and is made again, and an agent that is lost after the
actor of its VM was discovered. -/
theorem placeholders_backed_iff_discovered :
    let events := [reportsFull agentOne 0 [] 0, createsVm 5 1, ticks (seconds 122),
      reportsFull agentOne 1 [5] (seconds 123), reportsVm vmActorOne 5 (some (sampleManifest 5)),
      .agentUpdaterStopped agentOne]
    Transition.AllStates Backed onStart (runFrom onStart events) ∧
      Transition.AllSteps LeavesBacked onStart (runFrom onStart events) := by
  intro events
  have hstates : Transition.AllStates Backed onStart (runFrom onStart events) := by
    refine ⟨backed_onStart, ?_⟩
    have hall : ((runFrom onStart events).all fun p => p.2.vmDataCache.toList.all fun e =>
        decide (placeholders p.2.vmDataCache e.1 ≤ (p.2.placementsOf e.1).length)) = true := by
      decide +kernel
    exact fun p hp => backed_of_cached (List.all_eq_true.mp hall p hp)
  exact ⟨hstates, (placeholders_backed_iff _ (isRun_runFrom onStart events)).mp hstates⟩

/-- VM 5 is reserved on an agent that is lost: the placement goes, the placeholder stays. -/
theorem placeholder_unbacked :
    let s := handleAll [reportsFull agentOne 0 [] 0, createsVm 5 1, .agentUpdaterStopped agentOne]
    Reachable s ∧ placeholders s.vmDataCache 5 = 1 ∧ s.placementsOf 5 = [] ∧ ¬ Backed s := by
  intro s
  have hplaceholder : placeholders s.vmDataCache 5 = 1 := by decide +kernel
  have hplacement : s.placementsOf 5 = [] := by decide +kernel
  refine ⟨reachable_handleAll _, hplaceholder, hplacement, fun hbacked => ?_⟩
  have hle := hbacked 5
  rw [hplaceholder, hplacement] at hle
  exact absurd hle (by decide)

end Odorobo.SchedulerActor
