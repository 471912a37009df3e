import ChronoPay.CreateAtomicity
import ChronoPay.EscrowDrift
import ChronoPay.ListenerSerial

/-!
# EscrowProjection — which intent an event moves, and how often

The second projection of an event finds the intent that the first one
moved, in the status the event leads to, and is a no-op.

An event without an intent id goes to the slot's latest intent by start
time. Every intent for a slot starts when the slot does, so among them
there is no latest: the lookup returns the FIRST intent the slot ever
had, and a slot that was cancelled and booked again keeps its events on
the cancelled intent.
-/

namespace ChronoPay

open Coop Function KeyedList List Option

namespace BookingIntents

/-- The states the repository's own operations lead to. -/
inductive Stored : BookingIntents → Prop
  | empty : Stored {}
  | created {repo repo' : BookingIntents} {draft intent : BookingIntentRecord} (h : Stored repo)
      (hcreate : repo.create draft = some (repo', intent)) : Stored repo'
  /-- The fields to update never contain the id. -/
  | updated {repo repo' : BookingIntents} {id : String} {intent : BookingIntentRecord}
      {updates : BookingIntentRecord → BookingIntentRecord} (h : Stored repo)
      (hid : ∀ stored, (updates stored).id = stored.id)
      (hupdate : repo.update id updates = some (repo', intent)) : Stored repo'

variable {repo : BookingIntents} {slotId : String}

theorem Stored.numbered (h : Stored repo) :
    Numbered (fun n => "intent-" ++ toString n) BookingIntentRecord.id repo.sequence
      repo.intents := by
  induction h with
  | empty => exact .nil
  | created h hcreate ih =>
    obtain ⟨-, rfl, rfl⟩ := create_eq_some.mp hcreate
    exact ih.concat (label_injective _) rfl
  | updated h hid hupdate ih =>
    obtain ⟨stored, -, -, rfl⟩ := update_eq_some.mp hupdate
    exact ih.modify hid

/-- What does not touch slot ids and start times does not change which
intent is the latest. -/
theorem findLatestBySlotId_map {g : BookingIntentRecord → BookingIntentRecord}
    (hslot : ∀ intent, (g intent).slotId = intent.slotId)
    (hstart : ∀ intent, (g intent).startTime = intent.startTime) :
    findLatestBySlotId { repo with intents := repo.intents.map g } slotId
      = (repo.findLatestBySlotId slotId).map g := by
  have hfilter : (repo.intents.map g).filter (fun entry => entry.slotId = slotId)
      = (repo.intents.filter fun entry => entry.slotId = slotId).map g := by
    simp [List.filter_map, comp_def, hslot]
  unfold findLatestBySlotId
  rw [hfilter]
  cases repo.intents.filter fun entry => entry.slotId = slotId with
  | nil => rfl
  | cons first rest =>
    simp only [map_cons, foldl_map, map_some, hstart, Option.some.injEq]
    refine foldl_hom g fun latest current => ?_
    simp only [hstart, apply_ite g]

/-- Of intents that start together the first one is the latest. -/
theorem findLatestBySlotId_eq_find? {t : Int}
    (h : ∀ intent ∈ repo.intents, intent.slotId = slotId → intent.startTime = t) :
    repo.findLatestBySlotId slotId = repo.intents.find? fun entry => entry.slotId = slotId := by
  rw [← head?_filter, findLatestBySlotId]
  have hall : ∀ intent ∈ repo.intents.filter fun entry => entry.slotId = slotId,
      intent.startTime = t := by
    intro intent hintent
    rw [mem_filter] at hintent
    exact h intent hintent.1 (of_decide_eq_true hintent.2)
  cases hcandidates : repo.intents.filter fun entry => entry.slotId = slotId with
  | nil => rfl
  | cons first rest =>
    rw [hcandidates] at hall
    -- no step of the reduction replaces the first candidate
    have hstep : ∀ current ∈ rest, ¬ current.startTime > first.startTime := by
      intro current hcurrent
      rw [hall current (mem_cons_of_mem _ hcurrent), hall first mem_cons_self]
      omega
    clear hall hcandidates
    simp only [head?_cons, Option.some.injEq]
    induction rest with
    | nil => rfl
    | cons current rest ih =>
      rw [foldl_cons, if_neg (hstep current mem_cons_self)]
      exact ih (forall_mem_cons.mp hstep).2

end BookingIntents

namespace ListenerInstances

open EscrowStateProjector

variable {event : EscrowEvent} {intent : BookingIntentRecord} {store : Store}

/-! ## The same event twice -/

/-- The lookup finds the intent again once its status is written. -/
theorem findActiveIntent_moveIntent (h : DistinctIds store)
    (hfound : findActiveIntent event store.intents = some intent) :
    findActiveIntent event (moveIntent event intent store).intents
      = some { intent with status := targetByKind event.kind } := by
  cases hid : event.bookingIntentId.filter (· ≠ "") with
  | some id =>
    rw [findActiveIntent_of_id hid, filter_eq_some_iff] at hfound
    obtain ⟨hstored, hslot⟩ := hfound
    obtain rfl := get_key hstored
    have hmoved : (moveIntent event intent store).intents.findById intent.id
        = some { intent with status := targetByKind event.kind } := by
      unfold BookingIntents.findById at hstored ⊢
      rw [moveIntent, get_modify_self (by exact fun _ => rfl), hstored]
      rfl
    rw [findActiveIntent_of_id hid, hmoved, filter_some, if_pos hslot]
  | none =>
    unfold findActiveIntent at hfound ⊢
    rw [hid] at hfound ⊢
    dsimp only [moveIntent] at hfound ⊢
    rw [modify_eq_map h, BookingIntents.findLatestBySlotId_map, hfound]
    · simp
    · intro other
      split <;> rfl
    · intro other
      split <;> rfl

theorem freeSlot_intents : (freeSlot event store).intents = store.intents := by
  unfold freeSlot
  split <;> rfl

/-- An event whose intent has its target status is a no-op. -/
theorem project_settled {allowed : List String}
    (haddress : event.contractAddress ∈ allowed)
    (hfound : findActiveIntent event store.intents = some intent)
    (hstatus : intent.status = targetByKind event.kind) :
    ∃ outcome, project allowed event store = .ok (store, outcome) ∧
      outcome.result ≠ .applied ∧ outcome.slotFreed = false := by
  rw [project, if_neg (not_not.mpr haddress), hfound]
  dsimp only
  rw [if_pos hstatus]
  exact ⟨_, rfl, nofun, rfl⟩

/-- **Projecting an event again does nothing**, and once it changes at
most the status of the intent it selects and the flag of its slot. -/
theorem project_idempotent (contractAddressAllowList : List String) (event : EscrowEvent)
    {store : Store} (hstored : store.intents.Stored) :
    ∃ store' outcome outcome',
      project contractAddressAllowList event store = .ok (store', outcome) ∧
      project contractAddressAllowList event store' = .ok (store', outcome') ∧
      outcome'.result ≠ .applied ∧ outcome'.slotFreed = false ∧
      (outcome.result ≠ .applied → store' = store) ∧
      (outcome.result = .applied → ∃ intent,
        findActiveIntent event store.intents = some intent ∧
        store'.intents = { store.intents with
          intents := store.intents.intents.map fun stored =>
            if stored = intent then { stored with status := targetByKind event.kind }
            else stored } ∧
        (store'.slots = store.slots ∨
          store'.slots = store.slots.setBookable event.slotId true)) := by
  obtain ⟨store', outcome, hproject, hcases⟩ := project_cases contractAddressAllowList event store
  rcases hcases with ⟨hnoop, hfreed, rfl⟩ | ⟨happlied, haddress, intent, hfound, rfl⟩
  · exact ⟨_, _, _, hproject, hproject, hnoop, hfreed, fun _ => rfl, fun h => absurd h hnoop⟩
  · have hdistinct : DistinctIds store := hstored.numbered.nodup
    obtain ⟨outcome', hagain, hnoop, hfreed⟩ := project_settled haddress
      (freeSlot_intents ▸ findActiveIntent_moveIntent hdistinct hfound) rfl
    refine ⟨_, _, _, hproject, hagain, hnoop, hfreed, fun h => absurd happlied h,
      fun _ => ⟨intent, hfound, ?_, ?_⟩⟩
    · rw [freeSlot_intents, moveIntent, modify_eq_map hdistinct]
      dsimp only
      congr 1
      refine map_congr_left fun stored hmem => ?_
      -- only the selected intent has its id
      have hself : stored.id = intent.id ↔ stored = intent :=
        ⟨fun hid => inj_on_of_nodup_map hdistinct hmem (findActiveIntent_mem hfound) hid,
          fun heq => heq ▸ rfl⟩
      simp only [hself]
    · unfold freeSlot
      split
      · exact .inr rfl
      · exact .inl rfl

/-- The store after the first booking of the sample slot. -/
def bookedStore : Store where
  slots := [{ sampleSlot with bookable := false }]
  intents := { intents := [samplePending], sequence := 2 }

def releasedEvent : EscrowEvent := EscrowDrift.sampleEvent .released "tx"

theorem project_idempotent_booked :
    ∃ store' outcome outcome', project ["escrow"] releasedEvent bookedStore = .ok (store', outcome) ∧
      project ["escrow"] releasedEvent store' = .ok (store', outcome') ∧
      outcome'.result ≠ .applied ∧ outcome'.slotFreed = false := by
  have hcreate : ({} : BookingIntents).create samplePending
      = some (bookedStore.intents, samplePending) := rfl
  have hstored : bookedStore.intents.Stored := .created .empty hcreate
  obtain ⟨store', outcome, outcome', hfirst, hagain, hnoop, hfreed, -⟩ :=
    project_idempotent ["escrow"] releasedEvent hstored
  exact ⟨store', outcome, outcome', hfirst, hagain, hnoop, hfreed⟩

end ListenerInstances

/-! ## Whose event is it? -/

namespace IntentTimes

open EscrowStateProjector

/-- The start of the slot an id names. -/
def startOf (slots : Slots) (slotId : String) : Option Int :=
  (slots.findById slotId).map SlotRecord.startTime

theorem startOf_setBookable (slots : Slots) (slotId : String) (b : Bool) :
    startOf (slots.setBookable slotId b) = startOf slots := by
  funext other
  rw [startOf, startOf, Slots.findById_setBookable]
  split <;> simp [comp_def]

variable {starts : String → Option Int} {cfg : ServiceConfig} {e : Env} {s : Store} {pc : Pc}

/-- Everything that is stored starts when its slot does. -/
structure Timed (starts : String → Option Int) (s : Store) : Prop where
  slots : startOf s.slots = starts
  intents : ∀ intent ∈ s.intents.intents, starts intent.slotId = some intent.startTime

def Timely (starts : String → Option Int) (pc : Pc) : Prop :=
  ∀ slot ∈ pc.readSlot, starts slot.id = some slot.startTime

theorem timely_of_none (h : pc.readSlot = none) : Timely starts pc := by
  simp [Timely, h]

theorem perform_timed {seg : Segment} (hs : Timed starts s) (hpc : Timely starts pc)
    (hseg : seg.From s pc) :
    Timed starts (perform e seg s).1 ∧
      ∀ pc', (perform e seg s).2 = .waiting pc' → Timely starts pc' := by
  cases seg with
  | throw err => exact ⟨hs, fun _ h => by cases h⟩
  | await pc' =>
    refine ⟨hs, fun _ h slot hslot => ?_⟩
    cases h
    rcases hseg slot hslot with hread | hstored
    · exact hpc slot hread
    · rw [← hs.slots, startOf, hstored, map_some]
  | create draft next =>
    obtain ⟨-, ⟨slot, hslot, hid, hstart⟩, hnext⟩ := hseg
    rw [perform]
    cases hcreate : s.intents.create draft with
    | none => exact ⟨hs, fun _ h => by cases h; exact timely_of_none rfl⟩
    | some result =>
      obtain ⟨-, hcreated, hintents⟩ := BookingIntents.create_eq_some.mp hcreate
      refine ⟨⟨hs.slots, ?_⟩, fun _ h => by cases h; exact timely_of_none (hnext _)⟩
      simp only [hintents, hcreated, mem_append, mem_singleton]
      rintro intent (hintent | rfl)
      · exact hs.intents intent hintent
      · change starts draft.slotId = some draft.startTime
        rw [hid, hstart]
        exact hpc slot hslot
  | update id updates next =>
    obtain ⟨⟨move, -, hmoves⟩, hstart, hnext⟩ := hseg
    rw [perform]
    cases hupdate : s.intents.update id updates with
    | none => exact ⟨hs, fun _ h => by cases h⟩
    | some result =>
      obtain ⟨stored, -, -, hintents⟩ := BookingIntents.update_eq_some.mp hupdate
      refine ⟨⟨hs.slots, ?_⟩, fun pc h => timely_of_none (hnext _ pc h)⟩
      simp only [hintents]
      refine forall_mem_modify (fun intent hintent => ?_) hs.intents
      rw [(hmoves intent).2.1, hstart intent]
      exact hintent
  | reserve slotId response =>
    rw [perform]
    split
    · exact ⟨hs, fun _ h => by cases h⟩
    next slots hreserve =>
      obtain ⟨-, rfl⟩ := reserveSlot_eq_ok.mp hreserve
      exact ⟨⟨(startOf_setBookable ..).trans hs.slots, hs.intents⟩, fun _ h => by cases h⟩
  | release slotId outcome =>
    rw [perform, releaseSlotBestEffort_eq]
    exact ⟨⟨(startOf_setBookable ..).trans hs.slots, hs.intents⟩, fun _ h => by cases h⟩

theorem run_timed (cfg : ServiceConfig) (slots : Slots) (ks : List ServiceCmd) :
    Timed (startOf slots) (Coop.run (service cfg) (opened slots) ks).shared := by
  refine (Machine.run_inv (I := fun σ : ServiceState => Timed (startOf slots) σ.shared ∧
    Held (fun _ pc => Timely (startOf slots) pc) σ) ?_ ?_ ks).1
  · rintro σ k ⟨hs, hheld⟩
    have hsegment : ∀ e pc, resumed σ k = some (e, pc) →
        Timed (startOf slots) ((service cfg).resume e pc σ.shared).1 ∧
        ∀ pc', ((service cfg).resume e pc σ.shared).2 = .waiting pc' → Timely (startOf slots) pc' :=
      fun e pc hk => perform_timed hs (hheld.at_resumed hk) (segment_from cfg e σ.shared pc)
    refine ⟨shared_step hs fun e pc hk => (hsegment e pc hk).1, hheld.step ?_ ?_ ?_⟩
    · exact fun q => timely_of_none rfl
    · exact fun e pc pc' hk _ hnext => (hsegment e pc hk).2 pc' hnext
    · exact fun e pc pc' _ _ hpc' => hpc'
  · exact ⟨⟨rfl, fun _ h => by cases h⟩, fun _ h => by cases h⟩

/-- Pending, held, confirmed or firm. -/
def standing (intent : BookingIntentRecord) : Bool := intent.status.live || intent.status = .firm

/-- **An event without an intent id goes to the slot's FIRST intent**: it
finds the live one exactly when that is the first the slot ever had. -/
theorem findActiveIntent_standing_iff (cfg : ServiceConfig) (slots : Slots)
    (ks : List ServiceCmd) (event : EscrowEvent)
    (hid : event.bookingIntentId.filter (· ≠ "") = none) :
    (∃ intent, findActiveIntent event (Coop.run (service cfg) (opened slots) ks).shared.intents
        = some intent ∧ standing intent = true) ↔
      ∃ first, (Coop.run (service cfg) (opened slots) ks).shared.intents.intents.find?
        (fun intent => intent.slotId = event.slotId) = some first ∧ standing first = true := by
  have htimed := run_timed cfg slots ks
  unfold findActiveIntent
  rw [hid]
  rw [BookingIntents.findLatestBySlotId_eq_find? (t := (startOf slots event.slotId).getD 0)]
  intro intent hintent hslot
  rw [← hslot, htimed.intents intent hintent]
  rfl

/-- The first booking of a slot. -/
def firstBooking : List ServiceCmd :=
  [.call (.createIntent { slotId := "slot" } ann),
    .resume 0 sampleEnv, .resume 0 sampleEnv, .resume 0 sampleEnv, .resume 0 sampleEnv]

theorem findActiveIntent_firstBooking :
    ∃ intent, findActiveIntent ListenerInstances.releasedEvent
        (Coop.run (service {}) (opened [sampleSlot]) firstBooking).shared.intents = some intent ∧
      standing intent = true :=
  (findActiveIntent_standing_iff {} [sampleSlot] firstBooking ListenerInstances.releasedEvent
    rfl).mpr ⟨samplePending, by decide +kernel⟩

/-- Bob books the slot that Ann has cancelled. -/
def rebooking : List ServiceCmd :=
  serialCancel ++ [.call (.createIntent { slotId := "slot" } bob),
    .resume 2 sampleEnv, .resume 2 sampleEnv, .resume 2 sampleEnv, .resume 2 sampleEnv]

theorem rebooking_selects_cancelled :
    (Coop.run (service {}) (opened [sampleSlot]) rebooking).shared.intents.intents.map
        (fun intent => (intent.id, intent.slotId, intent.status))
      = [("intent-1", "slot", .cancelled), ("intent-2", "slot", .pending)] ∧
    (findActiveIntent ListenerInstances.releasedEvent
        (Coop.run (service {}) (opened [sampleSlot]) rebooking).shared.intents).map
      BookingIntentRecord.id = some "intent-1" := by
  decide +kernel

end IntentTimes

end ChronoPay
