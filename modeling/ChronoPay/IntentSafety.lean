import ChronoPay.BookingIntentService

/-!
# IntentSafety — interleaved requests and what they do to intents

Every transition is a read, a check of the copy, and a later write that
does not look at the stored record again. So the two safety properties a
booking system wants are NOT invariants of the service:

* one live intent per slot: `create` guards against active intents only,
  so a request that saw the slot bookable still inserts next to an
  intent that was confirmed in the meantime;
* terminal statuses are final: a stale confirmation revives a cancelled
  intent.

For the first, `oneLive_always_iff` says exactly which steps break it;
for the second, `terminal_of_fresh_run` gives a condition on the steps
under which it holds.
-/

namespace ChronoPay

open Coop KeyedList List Machine Option

/-! ## What a segment writes -/

/-- The transition a continuation is part of, if it may write. -/
def Pc.move : Pc → Option Move
  | .loaded op _ _ => some <| match op with
    | .confirmIntent _ => .confirm
    | .cancelIntent _ => .cancel
    | .refundIntent _ _ => .refund
    | .expireIntent => .expire
    | .autoRefundHold _ => .autoRefund
    | .markNoShow _ _ => .noShow
  | .confirmExpiring _ _ => some .expire
  | .noShowStruck _ _ _ _ => some .noShow
  | _ => none

/-- The statuses a transition can write. -/
def Move.targets : Move → List BookingIntentStatus
  | confirm => [.confirmed]
  | cancel => [.cancelled, .holdRefunded]
  | refund => [.cancelled]
  | expire => [.expired]
  | autoRefund => [.holdRefunded]
  | noShow => [.noShow]

/-- An update that moves an intent: its id and slot stay, its status
becomes one of the transition's. -/
def Moves (move : Move) (updates : BookingIntentRecord → BookingIntentRecord) : Prop :=
  ∀ stored, (updates stored).id = stored.id ∧ (updates stored).slotId = stored.slotId ∧
    (updates stored).status ∈ move.targets

/-- The slot a suspended `createIntent` has read. -/
def Pc.readSlot : Pc → Option SlotRecord
  | .createOwn _ _ slot _ | .createForSlot _ _ slot _ | .createPricing _ _ slot _
  | .createFx _ _ slot _ _ _ => some slot
  | _ => none

/-- **What a segment can end in.** A slot is read from the store and then
passed on; what is inserted is an active intent for that slot, at its
time; and only a transition updates an intent, as its kind says, and
leaves it at its time. -/
def Segment.From (s : Store) (pc : Pc) : Segment → Prop
  | .await pc' => ∀ slot ∈ pc'.readSlot, slot ∈ pc.readSlot ∨ s.slots.findById slot.id = some slot
  | .create draft next =>
    draft.status.active = true ∧
    (∃ slot ∈ pc.readSlot, draft.slotId = slot.id ∧ draft.startTime = slot.startTime) ∧
    ∀ intent, (next intent).readSlot = none
  | .update _ updates next =>
    (∃ move, pc.move = some move ∧ Moves move updates) ∧
    (∀ stored, (updates stored).startTime = stored.startTime) ∧
    ∀ updated pc', next updated = .waiting pc' → pc'.readSlot = none
  | .throw _ | .reserve _ _ | .release _ _ => True

section

variable {cfg : ServiceConfig} {e : Env} {s : Store} {pc : Pc} {actor : AuthContext}
  {input : CreateBookingIntentInput} {slot : SlotRecord} {found : Option BookingIntentRecord}

theorem attempt_from {α : Type} {checks : Except ServiceError α} {rest : α → Segment}
    (h : ∀ a, checks = .ok a → (rest a).From s pc) : (attempt checks rest).From s pc := by
  cases checks with
  | error err => trivial
  | ok a => exact h a rfl

theorem createInsert_from {snapshots : CreateSnapshots} {fx : Option FxRateSnapshot}
    (hslot : pc.readSlot = some slot) :
    (createInsert e input actor slot snapshots fx).From s pc := by
  refine attempt_from fun _ _ => ⟨?_, ⟨slot, hslot, rfl, rfl⟩, fun _ => rfl⟩
  unfold draftIntent
  dsimp only
  split <;> rfl

theorem createSnapshots_from {pricing : Option PricingSnapshot}
    (hslot : pc.readSlot = some slot) :
    (createSnapshots cfg e input actor slot pricing).From s pc := by
  refine attempt_from fun snapshots _ => ?_
  split
  · exact fun other hother => .inl (hslot.trans hother)
  · exact createInsert_from hslot

theorem expireIntent_from {id : String} {outcome : BookingIntentRecord → Outcome}
    (hmove : pc.move = some .expire) : (expireIntent id found outcome).From s pc :=
  attempt_from fun _ _ => ⟨⟨.expire, hmove, fun _ => ⟨rfl, rfl, by simp [Move.targets]⟩⟩,
    fun _ => rfl, fun _ _ hnext => by cases hnext; rfl⟩

theorem transition_from {op : IntentOp} {id : String} :
    (transition cfg e id found s op).From s (.loaded op id found) := by
  cases op with
  | confirmIntent actor =>
    refine attempt_from fun intent _ => ?_
    split
    · exact fun _ hother => by cases hother
    · exact ⟨⟨.confirm, rfl, fun _ => ⟨rfl, rfl, by simp [Move.targets]⟩⟩, fun _ => rfl,
        fun _ _ hnext => by cases hnext⟩
  | cancelIntent actor =>
    refine attempt_from fun intent _ => ⟨⟨.cancel, rfl, fun stored => ?_⟩, fun stored => ?_,
      fun _ _ hnext => by cases hnext; rfl⟩
    · unfold cancelUpdates
      split <;> exact ⟨rfl, rfl, by simp [Move.targets, refundedWith]⟩
    · unfold cancelUpdates
      split <;> rfl
  | refundIntent actor input =>
    exact attempt_from fun _ _ => ⟨⟨.refund, rfl, fun _ => ⟨rfl, rfl, by simp [Move.targets,
      refundedWith]⟩⟩, fun _ => rfl, fun _ _ hnext => by cases hnext; rfl⟩
  | expireIntent => exact expireIntent_from rfl
  | autoRefundHold force =>
    exact attempt_from fun _ _ => ⟨⟨.autoRefund, rfl, fun _ => ⟨rfl, rfl, by simp [Move.targets,
      refundedWith]⟩⟩, fun _ => rfl, fun _ _ hnext => by cases hnext; rfl⟩
  | markNoShow actor input => exact attempt_from fun _ _ _ hother => by cases hother

theorem checkSlot_eq_ok :
    checkSlot e input actor s.slots = .ok slot ↔
      s.slots.findById input.slotId = some slot ∧ slot.bookable = true ∧
        slot.expiredAt (e.nowMs .bundleExpiry) = false ∧ transferableTo slot actor ∧
        slot.professional ≠ actor.userId := by
  unfold checkSlot
  cases s.slots.findById input.slotId with
  | none => simp
  | some found =>
    simp only [Result.bind_eq_ok, Result.require_eq_ok, exists_const, Option.some.injEq]
    constructor
    · rintro ⟨hb, he, ht, hp, hret⟩
      cases hret
      exact ⟨rfl, hb, he, ht, hp⟩
    · rintro ⟨rfl, hb, he, ht, hp⟩
      exact ⟨hb, he, ht, hp, rfl⟩

theorem segment_from (cfg : ServiceConfig) (e : Env) (s : Store) (pc : Pc) :
    (segment cfg e s pc).From s pc := by
  cases pc with
  | start request =>
    cases request with
    | createIntent input actor =>
      refine attempt_from fun slot hslot other hother => .inr ?_
      cases hother
      have hfound := (checkSlot_eq_ok.mp hslot).1
      rwa [Slots.findById_id hfound]
    | transition op id => exact fun _ hother => by cases hother
  | createOwn input actor slot existing => exact attempt_from fun _ _ _ hother => .inl hother
  | createForSlot input actor slot existing =>
    refine attempt_from fun _ _ => ?_
    split
    · exact fun _ hother => .inl hother
    · exact createSnapshots_from rfl
  | createPricing input actor slot intents => exact attempt_from fun _ _ => createSnapshots_from rfl
  | createFx input actor slot snapshots base target =>
    exact attempt_from fun _ _ => createInsert_from rfl
  | loaded op id found => exact transition_from
  | confirmExpiring id found => exact expireIntent_from rfl
  | noShowStruck id intent forfeit reason =>
    exact attempt_from fun _ _ => ⟨⟨.noShow, rfl, fun _ => ⟨rfl, rfl, by simp [Move.targets]⟩⟩,
      fun _ => rfl, fun _ _ hnext => by cases hnext; rfl⟩
  | createReserve | releasing | rejected => trivial

end

/-- The intents after a segment's effect. -/
def Segment.intentsAfter : Segment → BookingIntents → BookingIntents
  | .create draft _, repo => ((repo.create draft).map Prod.fst).getD repo
  | .update intentId updates _, repo => ((repo.update intentId updates).map Prod.fst).getD repo
  | _, repo => repo

theorem perform_intents (e : Env) (seg : Segment) (s : Store) :
    (perform e seg s).1.intents = seg.intentsAfter s.intents := by
  cases seg with
  | create draft next =>
    simp only [perform, Segment.intentsAfter]
    cases s.intents.create draft <;> rfl
  | update intentId updates next =>
    simp only [perform, Segment.intentsAfter]
    cases s.intents.update intentId updates <;> rfl
  | reserve slotId response =>
    simp only [perform, Segment.intentsAfter]
    split <;> rfl
  | throw | await | release => rfl

/-- The record a segment inserts, if it inserts one. -/
def Segment.insertion : Segment → Option BookingIntentRecord
  | .create draft _ => some draft
  | _ => none

/-- The id of the intent a segment writes, if it writes one. -/
def Segment.target : Segment → Option String
  | .update intentId _ _ => some intentId
  | _ => none

/-- The segment a command runs in a state, if it runs one. -/
def running (cfg : ServiceConfig) (σ : ServiceState) (k : ServiceCmd) : Option (Pc × Segment) :=
  (resumed σ k).map fun (e, pc) => (pc, segment cfg e σ.shared pc)

theorem step_intents (cfg : ServiceConfig) (σ : ServiceState) (k : ServiceCmd) :
    (step (service cfg) σ k).shared.intents = match running cfg σ k with
      | some (_, seg) => seg.intentsAfter σ.shared.intents
      | none => σ.shared.intents := by
  rw [step_shared, running]
  cases resumed σ k with
  | none => rfl
  | some ep => exact perform_intents ..

variable {cfg : ServiceConfig} {status : BookingIntentStatus}

theorem running_from {σ : ServiceState} {k : ServiceCmd} {pc : Pc} {seg : Segment}
    (h : running cfg σ k = some (pc, seg)) : seg.From σ.shared pc := by
  obtain ⟨ep, -, heq⟩ := map_eq_some_iff.mp h
  cases ep
  obtain ⟨rfl, rfl⟩ := heq
  exact segment_from ..

/-! ## One live intent per slot -/

/-- Pending, held or confirmed: the intent stands for a booking. -/
def BookingIntentStatus.live (status : BookingIntentStatus) : Bool :=
  status.active || status = .confirmed

namespace BookingIntents

def liveOn (slotId : String) (entry : BookingIntentRecord) : Bool :=
  entry.slotId = slotId && entry.status.live

def confirmedOn (slotId : String) (entry : BookingIntentRecord) : Bool :=
  entry.slotId = slotId && entry.status = .confirmed

/-- No slot is booked twice. -/
def OneLive (repo : BookingIntents) : Prop := ∀ slotId, repo.intents.countP (liveOn slotId) ≤ 1

/-- No intent for the slot is confirmed. -/
def Unconfirmed (repo : BookingIntents) (slotId : String) : Prop :=
  ∀ entry ∈ repo.intents, entry.slotId = slotId → entry.status ≠ .confirmed

/-- No intent for the slot is live. -/
def Vacant (repo : BookingIntents) (slotId : String) : Prop :=
  ∀ entry ∈ repo.intents, entry.slotId = slotId → entry.status.live = false

instance (repo : BookingIntents) (slotId : String) : Decidable (repo.Unconfirmed slotId) :=
  inferInstanceAs (Decidable (∀ entry ∈ repo.intents, _))

instance (repo : BookingIntents) (slotId : String) : Decidable (repo.Vacant slotId) :=
  inferInstanceAs (Decidable (∀ entry ∈ repo.intents, _))

/-- A live intent is active or confirmed, never both. -/
theorem countP_liveOn (slotId : String) (intents : List BookingIntentRecord) :
    intents.countP (liveOn slotId)
      = intents.countP (activeOn slotId) + intents.countP (confirmedOn slotId) := by
  induction intents with
  | nil => rfl
  | cons entry intents ih =>
    have hentry : (if liveOn slotId entry = true then 1 else 0)
        = (if activeOn slotId entry = true then 1 else 0)
          + (if confirmedOn slotId entry = true then 1 else 0) := by
      cases hs : entry.status <;>
        by_cases hid : entry.slotId = slotId <;>
        simp [liveOn, activeOn, confirmedOn, BookingIntentStatus.live,
          BookingIntentStatus.active, hs, hid]
    simp only [countP_cons, ih, hentry]
    omega

variable {repo : BookingIntents}

theorem unconfirmed_iff {slotId : String} :
    repo.Unconfirmed slotId ↔ repo.intents.countP (confirmedOn slotId) = 0 := by
  simp [Unconfirmed, countP_eq_zero, confirmedOn]

theorem vacant_iff {slotId : String} :
    repo.Vacant slotId ↔ repo.intents.countP (liveOn slotId) = 0 := by
  simp [Vacant, countP_eq_zero, liveOn]

/-- Inserting an active intent keeps one live intent per slot exactly
when no intent for its slot is confirmed. -/
theorem oneLive_create_iff {draft : BookingIntentRecord} (hone : repo.OneLive)
    (hactive : draft.status.active = true) :
    (((repo.create draft).map Prod.fst).getD repo).OneLive ↔ repo.Unconfirmed draft.slotId := by
  have hcount := countP_liveOn draft.slotId repo.intents
  have hone' := hone draft.slotId
  cases hcreate : repo.create draft with
  | none =>
    -- refused: the slot's one live intent is active, so none is confirmed
    have hguard : (repo.findBySlotId draft.slotId).isSome = true := by
      unfold create at hcreate
      split at hcreate <;> simp_all
    have hne : repo.findBySlotId draft.slotId ≠ none := by
      intro h
      rw [h] at hguard
      cases hguard
    rw [ne_eq, findBySlotId_eq_none] at hne
    simp only [map_none, getD_none, unconfirmed_iff, hone, true_iff]
    omega
  | some result =>
    obtain ⟨repo', created⟩ := result
    obtain ⟨hguard, rfl, rfl⟩ := create_eq_some.mp hcreate
    have hnone : repo.intents.countP (activeOn draft.slotId) = 0 :=
      findBySlotId_eq_none.mp (hguard hactive)
    have hlive : ∀ slotId, liveOn slotId (repo.numbered draft) = decide (draft.slotId = slotId) := by
      intro slotId
      simp [liveOn, numbered, BookingIntentStatus.live, hactive]
    simp only [map_some, getD_some, OneLive, countP_append,
      countP_singleton, hlive, decide_eq_true_eq, unconfirmed_iff]
    constructor
    · intro h
      have := h draft.slotId
      rw [if_pos rfl] at this
      omega
    · intro hzero slotId
      by_cases hid : draft.slotId = slotId
      · subst hid
        rw [if_pos rfl]
        omega
      · rw [if_neg hid]
        exact hone slotId

end BookingIntents

/-- Only a confirmation writes a live status. -/
theorem Move.targets_live {move : Move} (h : status ∈ move.targets) :
    status.live = decide (move = .confirm) := by
  cases move <;> simp only [targets, mem_cons, not_mem_nil, or_false] at h
  case cancel => rcases h with rfl | rfl <;> rfl
  all_goals subst h; rfl

/-- Moving an intent keeps one live intent per slot, except that a
confirmation needs its intent still live or its slot without a live one. -/
theorem oneLive_update_iff {repo : BookingIntents} {intentId : String} {move : Move}
    {updates : BookingIntentRecord → BookingIntentRecord} (hone : repo.OneLive)
    (hmoves : Moves move updates) :
    (((repo.update intentId updates).map Prod.fst).getD repo).OneLive ↔
      (move = .confirm → ∀ stored ∈ repo.findById intentId,
        stored.status.live = true ∨ repo.Vacant stored.slotId) := by
  cases hfind : repo.findById intentId with
  | none => simp [BookingIntents.update, hfind, hone]
  | some stored =>
    obtain ⟨-, hslot, htarget⟩ := hmoves stored
    have hcount : ∀ slotId,
        (KeyedList.modify BookingIntentRecord.id intentId updates repo.intents).countP
            (BookingIntents.liveOn slotId)
          + (if stored.slotId = slotId ∧ stored.status.live = true then 1 else 0)
        = repo.intents.countP (BookingIntents.liveOn slotId)
          + (if stored.slotId = slotId ∧ move = .confirm then 1 else 0) := by
      intro slotId
      have h := countP_modify (f := updates) (BookingIntents.liveOn slotId) hfind
      simpa only [BookingIntents.liveOn, hslot, Move.targets_live htarget, Bool.and_eq_true,
        decide_eq_true_eq] using h
    simp only [BookingIntents.update, hfind, map_some, getD_some,
      BookingIntents.OneLive, Option.mem_def, Option.some.injEq, forall_eq',
      BookingIntents.vacant_iff]
    constructor
    · rintro h rfl
      have hat := hcount stored.slotId
      have hle := h stored.slotId
      by_cases hlive : stored.status.live = true
      · exact .inl hlive
      · right
        rw [if_neg fun h => hlive h.2, if_pos ⟨rfl, rfl⟩] at hat
        omega
    · intro h slotId
      have hat := hcount slotId
      have hle := hone slotId
      by_cases hmove : stored.slotId = slotId ∧ move = .confirm
      · obtain ⟨rfl, hconfirm⟩ := hmove
        rcases h hconfirm with hlive | hzero
        · rw [if_pos ⟨rfl, hlive⟩, if_pos ⟨rfl, hconfirm⟩] at hat
          omega
        · simp only [hconfirm, and_self, if_true] at hat
          omega
      · simp only [hmove, if_false] at hat
        omega

/-- The step does not act on a stale view of the slot: an insertion finds
no confirmed intent for its slot, and a confirmation finds its intent
still live, or its slot without a live intent. -/
def Undisturbed (cfg : ServiceConfig) (σ : ServiceState) (k : ServiceCmd) : Prop :=
  ∀ run ∈ running cfg σ k,
    (∀ draft ∈ run.2.insertion, σ.shared.intents.Unconfirmed draft.slotId) ∧
    (∀ intentId ∈ run.2.target, run.1.move = some .confirm →
      ∀ stored ∈ σ.shared.intents.findById intentId,
        stored.status.live = true ∨ σ.shared.intents.Vacant stored.slotId)

theorem step_oneLive_iff (cfg : ServiceConfig) (σ : ServiceState) (k : ServiceCmd)
    (hone : σ.shared.intents.OneLive) :
    (step (service cfg) σ k).shared.intents.OneLive ↔ Undisturbed cfg σ k := by
  rw [step_intents, Undisturbed]
  cases hrun : running cfg σ k with
  | none => simp [hone]
  | some run =>
    obtain ⟨pc, seg⟩ := run
    cases seg with
    | create draft next =>
      simp only [Option.mem_def, Option.some.injEq, forall_eq', Segment.insertion, Segment.target,
        reduceCtorEq, false_implies, implies_true, and_true]
      exact BookingIntents.oneLive_create_iff hone (running_from hrun).1
    | update intentId updates next =>
      obtain ⟨⟨move, hmove, hmoves⟩, -⟩ := running_from hrun
      simp only [Option.mem_def, Option.some.injEq, forall_eq', Segment.insertion, Segment.target,
        reduceCtorEq, false_implies, implies_true, true_and, hmove]
      exact oneLive_update_iff hone hmoves
    | _ => simp [Segment.intentsAfter, Segment.insertion, Segment.target, hone]

/-- **No double booking, exactly**: however the requests interleave, no
slot ever has two live intents if and only if every step is undisturbed. -/
theorem oneLive_always_iff (cfg : ServiceConfig) (slots : Slots) (ks : List ServiceCmd) :
    Always (step (service cfg)) (fun σ => σ.shared.intents.OneLive) (opened slots) ks
      ↔ Along (step (service cfg)) (Undisturbed cfg) (opened slots) ks :=
  always_iff_along (step_oneLive_iff cfg) (by simp [BookingIntents.OneLive, opened]) ks

/-- A slot, two customers and a still clock for the runs below. -/
def sampleSlot : SlotRecord where
  id := "slot"
  professional := "pro"
  startTime := 1000
  endTime := 2000
  bookable := true

def sampleEnv : Env where
  nowMs := fun _ => 0
  now := fun _ => "now"
  dateNow := 0

def ann : AuthContext := ⟨"ann", "customer"⟩

def bob : AuthContext := ⟨"bob", "customer"⟩

/-- Bob's request has seen the slot bookable when Ann books it and
confirms; then it finds no ACTIVE intent, twice, and inserts. -/
def doubleBooking : List ServiceCmd :=
  [.call (.createIntent { slotId := "slot" } ann),
    .call (.createIntent { slotId := "slot" } bob),
    .call (.transition (.confirmIntent ann) "intent-1"),
    .resume 1 sampleEnv,
    .resume 0 sampleEnv, .resume 0 sampleEnv, .resume 0 sampleEnv, .resume 0 sampleEnv,
    .resume 2 sampleEnv, .resume 2 sampleEnv,
    .resume 1 sampleEnv, .resume 1 sampleEnv]

theorem doubleBooking_not_oneLive :
    ¬ (Coop.run (service {}) (opened [sampleSlot]) doubleBooking).shared.intents.OneLive := by
  intro h
  exact absurd (h "slot") (by decide +kernel)

/-! ## Terminal statuses -/

def BookingIntentStatus.terminal (status : BookingIntentStatus) : Bool :=
  status = .cancelled || status = .expired || status = .holdRefunded || status = .noShow

/-- The status check the request made on its copy also passes on the
stored intent at the moment of the write. -/
def FreshWrite (cfg : ServiceConfig) (σ : ServiceState) (k : ServiceCmd) : Prop :=
  ∀ run ∈ running cfg σ k, ∀ intentId ∈ run.2.target, ∀ move ∈ run.1.move,
    ∀ stored ∈ σ.shared.intents.findById intentId, move.accepts stored.status = true

instance (cfg : ServiceConfig) (σ : ServiceState) (k : ServiceCmd) :
    Decidable (FreshWrite cfg σ k) :=
  inferInstanceAs (Decidable (∀ run ∈ running cfg σ k, _))

/-- The intent `id` is settled with this status. -/
def Settled (id : String) (status : BookingIntentStatus) (σ : ServiceState) : Prop :=
  ∃ intent, σ.shared.intents.findById id = some intent ∧ intent.status = status

theorem step_settled {σ : ServiceState} {k : ServiceCmd} {id : String}
    (hterm : status.terminal = true) (hset : Settled id status σ) (hfresh : FreshWrite cfg σ k) :
    Settled id status (step (service cfg) σ k) := by
  obtain ⟨intent, hfind, hstatus⟩ := hset
  unfold Settled
  rw [step_intents]
  cases hrun : running cfg σ k with
  | none => exact ⟨intent, hfind, hstatus⟩
  | some run =>
    obtain ⟨pc, seg⟩ := run
    cases seg with
    | create draft next =>
      refine ⟨intent, ?_, hstatus⟩
      simp only [Segment.intentsAfter]
      cases hcreate : σ.shared.intents.create draft with
      | none => exact hfind
      | some result =>
        -- the new intent is last, so lookups still find the old one first
        obtain ⟨repo', created⟩ := result
        obtain ⟨-, -, rfl⟩ := BookingIntents.create_eq_some.mp hcreate
        simp only [BookingIntents.findById] at hfind
        simp [BookingIntents.findById, get_append, hfind]
    | update intentId updates next =>
      obtain ⟨⟨move, hmove, hmoves⟩, -⟩ := running_from hrun
      have hne : id ≠ intentId := by
        rintro rfl
        have haccept := hfresh _ hrun id rfl move hmove intent hfind
        rw [hstatus] at haccept
        -- no transition accepts a terminal status
        cases move <;> cases status <;> first | (cases hterm; done) | cases haccept
      refine ⟨intent, ?_, hstatus⟩
      simp only [Segment.intentsAfter]
      cases hupdate : σ.shared.intents.update intentId updates with
      | none => exact hfind
      | some result =>
        obtain ⟨repo', updated⟩ := result
        obtain ⟨stored, -, -, rfl⟩ := BookingIntents.update_eq_some.mp hupdate
        refine (get_modify fun stored => (hmoves stored).1).trans ?_
        exact (if_neg hne).trans hfind
    | _ => exact ⟨intent, hfind, hstatus⟩

/-- **Terminal statuses are final** in every run whose writes are fresh:
once an intent is cancelled, expired, refunded or a no-show it stays so. -/
theorem terminal_of_fresh_run (cfg : ServiceConfig) (s : Store) (ks ks' : List ServiceCmd)
    (hfresh : Along (step (service cfg)) (FreshWrite cfg) { shared := s } (ks ++ ks'))
    {id : String} {intent : BookingIntentRecord}
    (hfind : (Coop.run (service cfg) { shared := s } ks).shared.intents.findById id = some intent)
    (hterm : intent.status.terminal = true) :
    ∃ intent', (Coop.run (service cfg) { shared := s } (ks ++ ks')).shared.intents.findById id
        = some intent' ∧ intent'.status = intent.status := by
  rw [Coop.run, run_append]
  exact run_inv_along (I := Settled id intent.status)
    (fun σ k hset hk => step_settled hterm hset hk) ⟨intent, hfind, rfl⟩
    (Along.append.mp hfresh).2

/-- Ann books, cancels, and only then tries to confirm. -/
def serialCancel : List ServiceCmd :=
  [.call (.createIntent { slotId := "slot" } ann),
    .resume 0 sampleEnv, .resume 0 sampleEnv, .resume 0 sampleEnv, .resume 0 sampleEnv,
    .call (.transition (.cancelIntent ann) "intent-1"), .resume 1 sampleEnv, .resume 1 sampleEnv,
    .resume 1 sampleEnv]

def lateConfirm : List ServiceCmd :=
  [.call (.transition (.confirmIntent ann) "intent-1"), .resume 2 sampleEnv, .resume 2 sampleEnv]

def samplePending : BookingIntentRecord where
  id := "intent-1"
  slotId := "slot"
  professional := "pro"
  customerId := "ann"
  startTime := 1000
  endTime := 2000
  status := .pending
  createdAt := "now"
  bookingType := some .standard
  cancellationPolicySnapshot := some ⟨proratedV2VersionId, proratedV2Terms, 0⟩
  holdFeePolicySnapshot := some ⟨"pro", 0, 0⟩

theorem terminal_of_serialCancel :
    Along (step (service {})) (FreshWrite {}) { shared := { slots := [sampleSlot] } }
        (serialCancel ++ lateConfirm) ∧
    ∃ intent, (Coop.run (service {}) { shared := { slots := [sampleSlot] } }
        (serialCancel ++ lateConfirm)).shared.intents.findById "intent-1" = some intent ∧
      intent.status = .cancelled := by
  have hfresh : Along (step (service {})) (FreshWrite {})
      { shared := { slots := [sampleSlot] } } (serialCancel ++ lateConfirm) := by decide +kernel
  have hfind : (Coop.run (service {}) { shared := { slots := [sampleSlot] } }
      serialCancel).shared.intents.findById "intent-1"
        = some { samplePending with status := .cancelled } := by decide +kernel
  exact ⟨hfresh, terminal_of_fresh_run {} _ serialCancel lateConfirm hfresh hfind rfl⟩

/-- A confirmation that read the intent before it was cancelled writes
after it, and the cancelled intent is confirmed. -/
def staleConfirm : List ServiceCmd :=
  [.call (.createIntent { slotId := "slot" } ann),
    .resume 0 sampleEnv, .resume 0 sampleEnv, .resume 0 sampleEnv, .resume 0 sampleEnv,
    .call (.transition (.cancelIntent ann) "intent-1"),
    .call (.transition (.confirmIntent ann) "intent-1"),
    .resume 2 sampleEnv, .resume 1 sampleEnv, .resume 1 sampleEnv]

theorem staleConfirm_revives :
    ((Coop.run (service {}) (opened [sampleSlot]) staleConfirm).shared.intents.findById
        "intent-1").map (·.status) = some .cancelled ∧
    ((Coop.run (service {}) (opened [sampleSlot])
        (staleConfirm ++ [.resume 2 sampleEnv])).shared.intents.findById
        "intent-1").map (·.status) = some .confirmed := by
  decide +kernel

end ChronoPay
