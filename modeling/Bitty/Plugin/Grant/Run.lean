import Bitty.Plugin.Grant.Restart

namespace Bitty.Plugin

namespace GrantStore

def restart (store : GrantStore) : Except PluginError Unit × GrantStore :=
  match store.render with
  | .error e => (.error e, store)
  | .ok text =>
    match parse text with
    | .error e => (.error e, store)
    | .ok reloaded => (.ok (), reloaded)

end GrantStore

inductive GrantOp
  | insert (record : GrantRecord)
  | insertWithConsent (record : GrantRecord) (consent : Option GrantConsent)
  | applyUpdate (id : PluginId) (oldHash newHash : Text) (newCaps : Finset CapabilityId) (approved : Bool) (decidedAt : UInt64)
  | revoke (id : PluginId) (capability : Option CapabilityId)
  | clearCapDenial (id : PluginId) (capability : CapabilityId)
  | restart

namespace GrantStore

variable {store : GrantStore} {record : GrantRecord} {id : PluginId} {c : CapabilityId} {op : GrantOp}

def step (store : GrantStore) : GrantOp → Except PluginError Unit × GrantStore
  | .insert record => (.ok (), store.insert record)
  | .insertWithConsent record consent => store.insertWithConsent record consent
  | .applyUpdate id oldHash newHash newCaps approved decidedAt =>
    let (answer, store') := store.applyUpdate id oldHash newHash newCaps approved decidedAt
    (answer.map fun _ => (), store')
  | .revoke id capability =>
    let (answer, store') := store.revoke id capability
    (answer.map fun _ => (), store')
  | .clearCapDenial id capability => (.ok (), (store.clearCapDenial id capability).2)
  | .restart => store.restart

def run (store : GrantStore) (ops : List GrantOp) : GrantStore := ops.foldl (fun store op => (store.step op).2) store

theorem run_append (first rest : List GrantOp) : store.run (first ++ rest) = (store.run first).run rest := List.foldl_append

def Yields (store : GrantStore) (id : PluginId) (c : CapabilityId) : Prop :=
  (∃ hash declared, store.isGranted id hash c declared = true) ∨ (∃ allowed, c ∈ store.effectiveGrants id allowed) ∨
    ∃ allowed caps, store.applyWorkspaceNarrowing id allowed = .ok caps ∧ c ∈ caps

def Regrants (id : PluginId) (c : CapabilityId) : GrantOp → Prop
  | .insert record | .insertWithConsent record _ => record.pluginId = id ∧ c ∈ record.granted
  | .applyUpdate other _ _ newCaps approved _ => other = id ∧ c ∈ newCaps ∧ approved = true
  | .revoke _ _ | .clearCapDenial _ _ | .restart => False

structure Fits (store : GrantStore) (record : GrantRecord) : Prop where
  clear : ∀ c ∈ record.granted, store.isCapDenied record.pluginId c = false
  bare : record.denied = true → record.granted = ∅

def Sound (store : GrantStore) : GrantOp → Prop
  | .insert record => store.Fits record
  | .insertWithConsent record consent => (∃ evidence, consent = some evidence ∧ evidence.decidedAt = record.decidedAt) → store.Fits record
  | .applyUpdate _ _ _ _ _ _ | .revoke _ _ | .clearCapDenial _ _ | .restart => True

def SoundRun : GrantStore → List GrantOp → Prop
  | _, [] => True
  | store, op :: rest => store.Sound op ∧ SoundRun (store.step op).2 rest

def Agrees (store : GrantStore) : Prop := ∀ id record, store.get id = some record → store.Fits record

theorem isGranted_iff {hash : Text} {declared : CapabilityRequests} : store.isGranted id hash c declared = true ↔
    declared.contains c = true ∧ store.isCapDenied id c = false ∧
      ∃ record, store.get id = some record ∧ record.manifestHash = hash ∧ record.denied = false ∧ c ∈ record.granted := by
  unfold isGranted GrantRecord.isGranted
  cases declared.contains c with
  | false => simp
  | true =>
    cases store.isCapDenied id c with
    | true => simp
    | false =>
      cases store.get id with
      | none => simp
      | some record =>
        by_cases same : record.manifestHash = hash
        · simp [same]
        · simp [same]

theorem yields_iff : store.Yields id c ↔ c ∈ store.held id := by
  constructor
  · rintro (⟨hash, declared, granted⟩ | ⟨allowed, member⟩ | ⟨allowed, caps, narrowed, member⟩)
    · obtain ⟨-, -, record, found, -, -, member⟩ := isGranted_iff.mp granted
      exact mem_held.mpr ⟨record, found, member⟩
    · exact (mem_effectiveGrants.mp member).1
    · unfold applyWorkspaceNarrowing at narrowed
      split at narrowed
      next => cases narrowed
      next record found =>
        split at narrowed
        next => cases narrowed
        next inside =>
          obtain rfl := Except.ok.inj narrowed
          exact mem_held.mpr ⟨record, found, not_not.mp inside member⟩
  · exact fun member => .inr (.inl ⟨none, member⟩)

theorem restart_cases (store : GrantStore) : store.restart.2 = store := by
  unfold restart
  split
  next => rfl
  next text rendered =>
    split
    next => rfl
    next reloaded parsed => exact parse_render rendered parsed

theorem step_error {e : PluginError} (refused : (store.step op).1 = .error e) : (store.step op).2 = store := by
  cases op with
  | insert record => cases refused
  | insertWithConsent record consent =>
    change (store.insertWithConsent record consent).2 = store
    change (store.insertWithConsent record consent).1 = _ at refused
    rcases insertWithConsent_cases store record consent with ⟨-, same⟩ | ⟨-, accepted⟩
    · exact same
    · rw [accepted] at refused
      cases refused
  | applyUpdate id oldHash newHash newCaps approved decidedAt =>
    change (store.applyUpdate id oldHash newHash newCaps approved decidedAt).2 = store
    change (store.applyUpdate id oldHash newHash newCaps approved decidedAt).1.map _ = _ at refused
    rcases applyUpdate_cases store id oldHash newHash newCaps approved decidedAt with same | ⟨⟨outcome, done⟩, -⟩
    · exact same
    · rw [done] at refused
      cases refused
  | revoke id capability =>
    change (store.revoke id capability).2 = store
    change (store.revoke id capability).1.map _ = _ at refused
    rcases revoke_cases store id capability with ⟨-, same⟩ | ⟨record, report, -, done, -⟩
    · exact same
    · rw [done] at refused
      cases refused
  | clearCapDenial id capability => cases refused
  | restart => exact store.restart_cases

theorem Agrees.put (agrees : store.Agrees) (fits : store.Fits record) : (store.put record).Agrees := by
  intro id other found
  rw [get_put] at found
  split at found
  next =>
    obtain rfl := Option.some.inj found
    exact ⟨fits.clear, fits.bare⟩
  next =>
    have old := agrees id other found
    exact ⟨old.clear, old.bare⟩

theorem Agrees.insert (agrees : store.Agrees) (fits : store.Fits record) : (store.insert record).Agrees := by
  intro id other found
  rw [get_insert] at found
  split at found
  next =>
    obtain rfl := Option.some.inj found
    exact ⟨fits.clear, fits.bare⟩
  next =>
    have old := agrees id other found
    exact ⟨old.clear, old.bare⟩

theorem Agrees.remove (agrees : store.Agrees) (id : PluginId) : ((store.remove id.asStr).deny id.asStr).Agrees := by
  intro other record found
  rw [get_deny, get_remove] at found
  split at found
  next => cases found
  next =>
    have old := agrees other record found
    exact ⟨old.clear, old.bare⟩

theorem Agrees.erase (agrees : store.Agrees) (found : store.get id = some record) (c : CapabilityId) :
    ((store.put { record with granted := record.granted.erase c }).denyCap id.asStr c).Agrees := by
  intro other new here
  have owner := pluginId_of_get found
  rw [get_denyCap, get_put] at here
  split at here
  next =>
    obtain rfl := Option.some.inj here
    have old := agrees id record found
    refine ⟨fun d member => ?_, fun denied => ?_⟩
    · obtain ⟨apart, inside⟩ := Finset.mem_erase.mp member
      have still := old.clear d inside
      rw [isCapDenied_denyCap]
      simpa [Ne.symm apart] using still
    · have nothing := old.bare denied
      simp [nothing]
  next apart =>
    have old := agrees other new here
    have named := pluginId_of_get here
    refine ⟨fun d member => ?_, old.bare⟩
    have still := old.clear d member
    have different : id ≠ new.pluginId := by
      rw [named, ← owner]
      exact apart
    rw [isCapDenied_denyCap]
    simpa [different] using still

theorem agrees_empty : ({} : GrantStore).Agrees := by
  intro id record found
  simp [get] at found

theorem Agrees.step (agrees : store.Agrees) (sound : store.Sound op) : (store.step op).2.Agrees := by
  cases op with
  | insert record => exact agrees.insert sound
  | insertWithConsent record consent =>
    change (store.insertWithConsent record consent).2.Agrees
    rcases insertWithConsent_cases store record consent with ⟨-, same⟩ | ⟨evidence, accepted⟩
    · rwa [same]
    · rw [accepted]
      exact agrees.insert (sound evidence)
  | applyUpdate id oldHash newHash newCaps approved decidedAt =>
    change (store.applyUpdate id oldHash newHash newCaps approved decidedAt).2.Agrees
    rcases applyUpdate_cases store id oldHash newHash newCaps approved decidedAt with
      same | ⟨-, current, new, update⟩
    · rwa [same]
    · rw [update.written]
      refine agrees.put ⟨fun c member => ?_, fun denied => ?_⟩
      · rw [update.owner]
        exact update.clear c (update.caps ▸ member)
      · rw [update.allowed] at denied
        cases denied
  | revoke id capability =>
    change (store.revoke id capability).2.Agrees
    rcases revoke_cases store id capability with
      ⟨-, same⟩ | ⟨record, report, found, -, ⟨-, gone⟩ | ⟨cap, -, -, less | ⟨-, gone⟩⟩⟩
    · rwa [same]
    · rw [gone]
      exact agrees.remove id
    · rw [less]
      exact agrees.erase found cap
    · rw [gone]
      exact (agrees.erase found cap).remove id
  | clearCapDenial id capability =>
    intro other record found
    have same : store.get other = some record := by
      rw [← found]
      exact congrArg (·[other.asStr]?) clearCapDenial_records.symm
    have old := agrees other record same
    refine ⟨fun c member => ?_, old.bare⟩
    change (store.clearCapDenial id capability).2.isCapDenied record.pluginId c = false
    rw [isCapDenied_clearCapDenial, old.clear c member, Bool.and_false]
  | restart =>
    change store.restart.2.Agrees
    rwa [restart_cases]

theorem isCapDenied_step (denied : store.isCapDenied id c = true) (other : op ≠ .clearCapDenial id c) :
    (store.step op).2.isCapDenied id c = true := by
  cases op with
  | insert record => exact denied
  | insertWithConsent record consent =>
    change (store.insertWithConsent record consent).2.isCapDenied id c = true
    rcases insertWithConsent_cases store record consent with ⟨-, same⟩ | ⟨-, accepted⟩
    · rwa [same]
    · rwa [accepted]
  | applyUpdate id' oldHash newHash newCaps approved decidedAt =>
    change (store.applyUpdate id' oldHash newHash newCaps approved decidedAt).2.isCapDenied id c = true
    rcases applyUpdate_cases store id' oldHash newHash newCaps approved decidedAt with
      same | ⟨-, current, new, update⟩
    · rwa [same]
    · rwa [update.written, isCapDenied_put]
  | revoke id' capability =>
    change (store.revoke id' capability).2.isCapDenied id c = true
    rcases revoke_cases store id' capability with
      ⟨-, same⟩ | ⟨record, report, -, -, ⟨-, gone⟩ | ⟨cap, -, -, less | ⟨-, gone⟩⟩⟩
    · rwa [same]
    · rwa [gone, isCapDenied_deny, isCapDenied_remove]
    · rw [less, isCapDenied_denyCap, isCapDenied_put, denied, Bool.or_true]
    · rw [gone, isCapDenied_deny, isCapDenied_remove, isCapDenied_denyCap, isCapDenied_put, denied, Bool.or_true]
  | clearCapDenial id' capability =>
    change (store.clearCapDenial id' capability).2.isCapDenied id c = true
    have apart : ¬(id' = id ∧ capability = c) := by
      rintro ⟨rfl, rfl⟩
      exact other rfl
    rw [isCapDenied_clearCapDenial, denied]
    simp [apart]
  | restart =>
    change store.restart.2.isCapDenied id c = true
    rwa [restart_cases]

theorem held_put : (store.put record).held id = if record.pluginId = id then record.granted else store.held id := by
  unfold held effectiveGrants
  rw [get_put]
  split
  next => rfl
  next => rfl

theorem held_step (fresh : c ∉ store.held id) (other : ¬Regrants id c op) : c ∉ (store.step op).2.held id := by
  have inserted (record : GrantRecord) (other : ¬(record.pluginId = id ∧ c ∈ record.granted)) : c ∉ (store.insert record).held id := by
    intro member
    unfold insert at member
    rw [held_put] at member
    split at member
    next owner => exact other ⟨owner, member⟩
    next => exact fresh member
  have gone (store : GrantStore) (fresh : c ∉ store.held id) (id' : PluginId) : c ∉ ((store.remove id'.asStr).deny id'.asStr).held id := by
    intro member
    obtain ⟨record, found, inside⟩ := mem_held.mp member
    rw [get_deny, get_remove] at found
    split at found
    next => cases found
    next => exact fresh (mem_held.mpr ⟨record, found, inside⟩)
  have erased (id' : PluginId) (record : GrantRecord) (cap : CapabilityId) (found : store.get id' = some record) :
      c ∉ ((store.put { record with granted := record.granted.erase cap }).denyCap id'.asStr cap).held id := by
    intro member
    change c ∈ (store.put { record with granted := record.granted.erase cap }).held id at member
    rw [held_put] at member
    split at member
    next owner =>
      obtain rfl : id' = id := (pluginId_of_get found).symm.trans owner
      exact fresh (mem_held.mpr ⟨record, found, Finset.mem_of_mem_erase member⟩)
    next => exact fresh member
  cases op with
  | insert record => exact inserted record other
  | insertWithConsent record consent =>
    change c ∉ (store.insertWithConsent record consent).2.held id
    rcases insertWithConsent_cases store record consent with ⟨-, same⟩ | ⟨-, accepted⟩
    · rwa [same]
    · rw [accepted]
      exact inserted record other
  | applyUpdate id' oldHash newHash newCaps approved decidedAt =>
    change c ∉ (store.applyUpdate id' oldHash newHash newCaps approved decidedAt).2.held id
    rcases applyUpdate_cases store id' oldHash newHash newCaps approved decidedAt with
      same | ⟨-, current, new, update⟩
    · rwa [same]
    · rw [update.written, held_put, update.owner, update.caps]
      split
      next here =>
        subst here
        intro member
        rcases update.covered with approval | inside
        · exact other ⟨rfl, member, approval⟩
        · exact fresh (mem_held.mpr ⟨current, update.found, inside member⟩)
      next => exact fresh
  | revoke id' capability =>
    change c ∉ (store.revoke id' capability).2.held id
    rcases revoke_cases store id' capability with
      ⟨-, same⟩ | ⟨record, report, found, -, ⟨-, done⟩ | ⟨cap, -, -, less | ⟨-, done⟩⟩⟩
    · rwa [same]
    · rw [done]
      exact gone store fresh id'
    · rw [less]
      exact erased id' record cap found
    · rw [done]
      exact gone _ (erased id' record cap found) id'
  | clearCapDenial id' capability =>
    intro member
    obtain ⟨record, found, inside⟩ := mem_held.mp member
    refine fresh (mem_held.mpr ⟨record, ?_, inside⟩)
    rw [← found]
    exact congrArg (·[id.asStr]?) clearCapDenial_records.symm
  | restart =>
    change c ∉ store.restart.2.held id
    rwa [restart_cases]

theorem SoundRun.append {first rest : List GrantOp} (sound : store.SoundRun (first ++ rest)) :
    store.SoundRun first ∧ (store.run first).SoundRun rest := by
  induction first generalizing store with
  | nil => exact ⟨trivial, sound⟩
  | cons op others ih =>
    obtain ⟨one, more⟩ := sound
    obtain ⟨before, after⟩ := ih more
    exact ⟨⟨one, before⟩, after⟩

theorem Agrees.run {ops : List GrantOp} (agrees : store.Agrees) (sound : store.SoundRun ops) : (store.run ops).Agrees := by
  induction ops generalizing store with
  | nil => exact agrees
  | cons op rest ih => exact ih (agrees.step sound.1) sound.2

theorem held_run {ops : List GrantOp} (fresh : c ∉ store.held id) (member : c ∈ (store.run ops).held id) :
    ∃ first grant rest, ops = first ++ grant :: rest ∧ Regrants id c grant := by
  induction ops generalizing store with
  | nil => exact absurd member fresh
  | cons op rest ih =>
    by_cases grant : Regrants id c op
    · exact ⟨[], op, rest, rfl, grant⟩
    · obtain ⟨first, later, others, rfl, regrants⟩ := ih (held_step fresh grant) member
      exact ⟨op :: first, later, others, rfl, regrants⟩

theorem Agrees.not_held (agrees : store.Agrees) (denied : store.isCapDenied id c = true) : c ∉ store.held id := by
  intro member
  obtain ⟨record, found, inside⟩ := mem_held.mp member
  have clear := (agrees id record found).clear c inside
  rw [pluginId_of_get found, denied] at clear
  cases clear

theorem Agrees.cleared {ops : List GrantOp} (agrees : store.Agrees) (sound : store.SoundRun ops)
    (denied : store.isCapDenied id c = true) (member : c ∈ (store.run ops).held id) : ∃ first second grant rest,
      ops = first ++ .clearCapDenial id c :: second ++ grant :: rest ∧ Regrants id c grant := by
  induction ops generalizing store with
  | nil => exact absurd member (agrees.not_held denied)
  | cons op others ih =>
    by_cases clear : op = .clearCapDenial id c
    · subst clear
      have fresh : c ∉ (store.step (.clearCapDenial id c)).2.held id := held_step (agrees.not_held denied) not_false
      obtain ⟨second, grant, rest, rfl, regrants⟩ := held_run fresh member
      exact ⟨[], second, grant, rest, rfl, regrants⟩
    · obtain ⟨first, second, grant, rest, rfl, regrants⟩ :=
        ih (agrees.step sound.1) sound.2 (isCapDenied_step denied clear) member
      exact ⟨op :: first, second, grant, rest, rfl, regrants⟩

/-- In a run that inserts only records that fit: a capability that was revoked is told by a reader only after its denial was
cleared and the capability granted; an update without approval adds none; the readers agree; and a call that is refused changes
nothing. -/
theorem revocation_durable (ops : List GrantOp) (sound : SoundRun {} ops) :
    (∀ before id c after, ops = before ++ .revoke id (some c) :: after →
      (∃ report, ((run {} before).revoke id (some c)).1 = .ok report) → (run {} ops).Yields id c →
        ∃ first second grant rest, after = first ++ .clearCapDenial id c :: second ++ grant :: rest ∧ Regrants id c grant) ∧
    (∀ id oldHash newHash newCaps decidedAt other c,
      ((run {} ops).applyUpdate id oldHash newHash newCaps false decidedAt).2.Yields other c → (run {} ops).Yields other c) ∧
    (∀ id allowed c declared, CapabilityRequests.contains declared c = true →
      (c ∈ (run {} ops).effectiveGrants id allowed ↔
        (∃ record, (run {} ops).get id = some record ∧ (run {} ops).isGranted id record.manifestHash c declared = true) ∧
          ∀ caps ∈ allowed, c ∈ caps)) ∧
    (∀ op e, ((run {} ops).step op).1 = .error e → ((run {} ops).step op).2 = run {} ops) := by
  have agrees := agrees_empty.run sound
  refine ⟨?_, ?_, ?_, fun op e => step_error⟩
  · rintro before id c after rfl ⟨report, revoked⟩ yields
    obtain ⟨soundBefore, here, soundAfter⟩ := sound.append
    have start := agrees_empty.run soundBefore
    have denied : ((run {} before).step (.revoke id (some c))).2.isCapDenied id c = true := by
      change ((run {} before).revoke id (some c)).2.isCapDenied id c = true
      rcases revoke_cases (run {} before) id (some c) with
        ⟨⟨e, refused⟩, -⟩ | ⟨record, _, -, -, ⟨whole, -⟩ | ⟨cap, same, -, less | ⟨-, gone⟩⟩⟩
      · rw [revoked] at refused
        cases refused
      · cases whole
      · obtain rfl := Option.some.inj same
        rw [less, isCapDenied_denyCap]
        simp
      · obtain rfl := Option.some.inj same
        rw [gone, isCapDenied_deny, isCapDenied_remove, isCapDenied_denyCap]
        simp
    rw [run_append] at yields
    exact (start.step here).cleared soundAfter denied (yields_iff.mp yields)
  · intro id oldHash newHash newCaps decidedAt other c yields
    rw [yields_iff] at yields ⊢
    by_contra fresh
    have unapproved : ¬Regrants other c (.applyUpdate id oldHash newHash newCaps false decidedAt) := by
      rintro ⟨-, -, approval⟩
      cases approval
    have still : c ∉ ((run {} ops).step (.applyUpdate id oldHash newHash newCaps false decidedAt)).2.held other :=
      held_step fresh unapproved
    exact still yields
  · intro id allowed c declared contains
    rw [mem_effectiveGrants]
    refine and_congr_left fun _ => ⟨fun member => ?_, ?_⟩
    · obtain ⟨record, found, inside⟩ := mem_held.mp member
      have fits := agrees id record found
      have clear := fits.clear c inside
      rw [pluginId_of_get found] at clear
      refine ⟨record, found, isGranted_iff.mpr ⟨contains, clear, record, found, rfl, ?_, inside⟩⟩
      cases denied : record.denied with
      | false => rfl
      | true =>
        rw [fits.bare denied] at inside
        exact absurd inside (Finset.notMem_empty c)
    · rintro ⟨record, -, granted⟩
      obtain ⟨-, -, other, found, -, -, inside⟩ := isGranted_iff.mp granted
      exact mem_held.mpr ⟨other, found, inside⟩

def semanticRead : CapabilityId := ⟨"terminal.semantic-read".toList, .core, by decide⟩

def richUi : CapabilityId := ⟨"ui.rich".toList, .core, by decide⟩

def testPlugin : PluginId := ⟨"xuepoo.test".toList, by decide⟩

def testRecord (granted : Finset CapabilityId) : GrantRecord := ⟨testPlugin, "h".toList, granted, 1, .consentUi, false⟩

theorem revocation_durable_kept : richUi ∉ (run {} [.insert (testRecord {semanticRead, richUi}), .revoke testPlugin (some richUi),
    .insert (testRecord {semanticRead})]).held testPlugin := by
  have sound : SoundRun {} [.insert (testRecord {semanticRead, richUi}), .revoke testPlugin (some richUi),
      .insert (testRecord {semanticRead})] :=
    ⟨⟨by decide, nofun⟩, trivial, ⟨by decide, nofun⟩, trivial⟩
  intro member
  obtain ⟨first, second, grant, rest, same, -⟩ := (revocation_durable _ sound).1 [.insert (testRecord {semanticRead, richUi})]
    testPlugin richUi [.insert (testRecord {semanticRead})] rfl ⟨⟨testPlugin, [richUi], false⟩, by decide⟩
    (yields_iff.mpr member)
  have length := congrArg List.length same
  simp only [List.length_append, List.length_cons, List.length_nil] at length
  omega

/-- A revoked capability that is inserted again is told by one reader and denied by another, and the denial was never cleared. -/
theorem revocation_not_durable :
    let store := run {} [.insert (testRecord {semanticRead, richUi}), .revoke testPlugin (some richUi),
      .insert (testRecord {semanticRead, richUi})]
    ((run {} [.insert (testRecord {semanticRead, richUi})]).revoke testPlugin (some richUi)).1 =
        .ok ⟨testPlugin, [richUi], false⟩ ∧
      richUi ∈ store.effectiveGrants testPlugin none ∧
      store.applyWorkspaceNarrowing testPlugin {richUi} = .ok {richUi} ∧
      store.isGranted testPlugin "h".toList richUi { ids := {semanticRead, richUi} } = false := by
  refine ⟨by decide, by decide, by decide, by decide⟩

end GrantStore

end Bitty.Plugin
