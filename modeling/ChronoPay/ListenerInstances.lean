import ChronoPay.ListenerSafety

/-!
# ListenerInstances — instances of the listener on shared stores

The loop over a page again, now with its suspension points: other
instances, and other ticks of the same one, run between the claim of an
event, the read of its intent, the write of the status, the release of
the slot and the claim of the next event. A call is one page at one
instance, cut to the events that are final for it; nothing is assumed
about how pages overlap.

The claim is atomic and stays until it is given back. Nothing else is:
the projector decides on the intent as it READ it, and the write of the
status does not look at the stored one.

`granted` and `projected` are not in the program: the events whose claim
stands, in the order of the claims, and those whose projection returned.
A repository call can fail, before it wrote anything.
-/

namespace ChronoPay

open Function

namespace ListenerInstances

open Coop EscrowListener EscrowStateProjector KeyedList

/-- A page, with the last final ledger as the instance knows it. -/
structure Delivery where
  safeTipSeq : Nat
  events : List EscrowEvent
  deriving DecidableEq, Repr

structure Shared where
  claims : String → Bool := fun _ => false
  store : Store
  granted : List EscrowEvent := []
  projected : List EscrowEvent := []

/-- Where the loop is suspended; `rest` is what is left of the page. -/
inductive Pc where
  /-- About to claim the next event. -/
  | next (rest : List EscrowEvent)
  /-- The event is claimed and `project` is called. -/
  | find (event : EscrowEvent) (rest : List EscrowEvent)
  /-- After `await findActiveIntent`. -/
  | found (event : EscrowEvent) (intent : Option BookingIntentRecord) (rest : List EscrowEvent)
  /-- After `await updateStatus`. -/
  | written (event : EscrowEvent) (rest : List EscrowEvent)
  /-- `project` threw; about to release the claim. -/
  | givingBack (event : EscrowEvent) (err : ProjectionError)
  deriving DecidableEq, Repr

/-- Whether the call to the outside in this segment fails. -/
structure Env where
  fails : Bool := false
  deriving DecidableEq, Repr

namespace Shared

def grant (s : Shared) (event : EscrowEvent) : Shared :=
  { s with
    claims := update s.claims (eventKey event) true
    granted := s.granted ++ [event] }

/-- `project` returned. -/
def conclude (s : Shared) (event : EscrowEvent) : Shared :=
  { s with projected := s.projected ++ [event] }

/-- `project` threw. -/
def abandon (s : Shared) (event : EscrowEvent) : Shared :=
  { s with granted := s.granted.filter fun other => other ≠ event }

def giveBack (s : Shared) (event : EscrowEvent) : Shared :=
  { s with claims := update s.claims (eventKey event) false }

end Shared

/-- The checks of `project` on the intent it read: the intent to move, if
the event moves it. -/
def toMove (event : EscrowEvent) (intent : Option BookingIntentRecord) :
    Option BookingIntentRecord :=
  match intent with
  | none => none
  | some intent =>
    if intent.status = targetByKind event.kind then none
    else if intent.status = .cancelled ∨ intent.status = .expired then none
    else if (statusTransitions intent.status).all fun edge => edge.1 ≠ event.kind then none
    else some intent

/-- The second half of `transition`. -/
def releaseAfter (event : EscrowEvent) (slots : Slots) : Except ProjectionError (Slots × Bool) :=
  if targetByKind event.kind ≠ .confirmed ∧ targetByKind event.kind ≠ .firm then
    tryReleaseSlot event.slotId slots
  else .ok (slots, false)

def abandonWith (s : Shared) (event : EscrowEvent) (err : ProjectionError) :
    Shared × Coop.Task Pc (Option ListenerError) :=
  (s.abandon event, .waiting (.givingBack event err))

def concludeWith (s : Shared) (event : EscrowEvent) (rest : List EscrowEvent) :
    Shared × Coop.Task Pc (Option ListenerError) :=
  (s.conclude event, .waiting (.next rest))

/-- One segment of the loop. -/
def resume (contractAddressAllowList : List String) (e : Env) (pc : Pc) (s : Shared) :
    Shared × Coop.Task Pc (Option ListenerError) :=
  match pc with
  | .next [] => (s, .done none)
  | .next (event :: rest) =>
    if e.fails then (s, .done (some (.claim (eventKey event))))
    else if s.claims (eventKey event) then (s, .waiting (.next rest))
    else (s.grant event, .waiting (.find event rest))
  | .find event rest =>
    if event.contractAddress ∉ contractAddressAllowList then concludeWith s event rest
    else if e.fails then abandonWith s event .unavailable
    else (s, .waiting (.found event (findActiveIntent event s.store.intents) rest))
  | .found event intent rest =>
    match toMove event intent with
    | none => concludeWith s event rest
    | some intent =>
      if e.fails then abandonWith s event .unavailable
      else
        match s.store.intents.updateStatus intent.id (targetByKind event.kind) with
        | none => abandonWith s event (.intentNotFound intent.id)
        | some (intents, _) =>
          ({ s with store := { s.store with intents } }, .waiting (.written event rest))
  | .written event rest =>
    match releaseAfter event s.store.slots with
    | .error err => abandonWith s event err
    | .ok (slots, _) => concludeWith { s with store := { s.store with slots } } event rest
  | .givingBack event err =>
    -- `safeRelease` swallows its own failure
    (if e.fails then s else s.giveBack event, .done (some (.projection (eventKey event) err)))

/-- The instances, which all have the same allow-list. -/
def program (contractAddressAllowList : List String) :
    Coop.Program Delivery Env Shared Pc (Option ListenerError) where
  start delivery := .next (delivery.events.filter fun event =>
    event.ledgerSeq ≤ delivery.safeTipSeq)
  resume := resume contractAddressAllowList

abbrev System := Coop.Sys Delivery Shared Pc (Option ListenerError)

def opened (store : Store) : System := { shared := { store } }

/-! ## The projector in one piece -/

/-- What `project` makes of the store; it does not throw. -/
def projectStore (contractAddressAllowList : List String) (event : EscrowEvent) (store : Store) :
    Store :=
  match project contractAddressAllowList event store with
  | .ok (store', _) => store'
  | .error _ => store

/-- One instance that projects the events one after the other. -/
def serial (contractAddressAllowList : List String) (store : Store) (events : List EscrowEvent) :
    Store :=
  events.foldl (fun store event => projectStore contractAddressAllowList event store) store

/-- The status written, and nothing else yet. -/
def moveIntent (event : EscrowEvent) (intent : BookingIntentRecord) (store : Store) : Store :=
  { store with
    intents.intents := KeyedList.modify BookingIntentRecord.id intent.id
      (fun stored => { stored with status := targetByKind event.kind }) store.intents.intents }

/-- The slot made bookable, when the event ends the booking. -/
def freeSlot (event : EscrowEvent) (store : Store) : Store :=
  if targetByKind event.kind ≠ .confirmed ∧ targetByKind event.kind ≠ .firm then
    { store with slots := store.slots.setBookable event.slotId true }
  else store

theorem tryReleaseSlot_eq (slotId : String) (slots : Slots) :
    ∃ freed, tryReleaseSlot slotId slots = .ok (slots.setBookable slotId true, freed) := by
  unfold tryReleaseSlot
  cases hslot : slots.findById slotId with
  | none =>
    rw [Slots.setBookable_of_absent hslot]
    exact ⟨false, rfl⟩
  | some slot =>
    have hrelease := releaseSlot_eq_ok.mpr ⟨by rw [hslot]; rfl, rfl⟩
    simp only [hrelease]
    split
    next hbookable =>
      have hsame : slots.setBookable slotId true = slots :=
        modify_of_get hslot (by rw [← hbookable])
      rw [hsame]
      exact ⟨false, rfl⟩
    · exact ⟨true, rfl⟩

theorem releaseAfter_eq (event : EscrowEvent) (store : Store) :
    ∃ freed, releaseAfter event store.slots = .ok ((freeSlot event store).slots, freed) := by
  unfold releaseAfter freeSlot
  split
  · exact tryReleaseSlot_eq event.slotId store.slots
  · exact ⟨false, rfl⟩

theorem toMove_eq_some {event : EscrowEvent} {intent : Option BookingIntentRecord}
    {moved : BookingIntentRecord} (h : toMove event intent = some moved) : intent = some moved := by
  unfold toMove at h
  split at h
  · cases h
  · split_ifs at h
    exact h

theorem updateStatus_stored (event : EscrowEvent) {intent : BookingIntentRecord} {store : Store}
    (h : (store.intents.findById intent.id).isSome = true) :
    ∃ updated, store.intents.updateStatus intent.id (targetByKind event.kind)
      = some ((moveIntent event intent store).intents, updated) := by
  obtain ⟨stored, hstored⟩ := Option.isSome_iff_exists.mp h
  exact ⟨_, BookingIntents.update_eq_some.mpr ⟨stored, hstored, rfl, rfl⟩⟩

theorem transition_eq (event : EscrowEvent) {intent : BookingIntentRecord} {store : Store}
    (h : (store.intents.findById intent.id).isSome = true) :
    ∃ outcome, outcome.result = .applied ∧
      EscrowStateProjector.transition intent (targetByKind event.kind) event store
        = .ok (freeSlot event (moveIntent event intent store), outcome) := by
  obtain ⟨updated, hupdate⟩ := updateStatus_stored event h
  obtain ⟨freed, hrelease⟩ := tryReleaseSlot_eq event.slotId store.slots
  simp only [EscrowStateProjector.transition, hupdate, freeSlot]
  split
  · rw [hrelease]
    exact ⟨_, rfl, rfl⟩
  · exact ⟨_, rfl, rfl⟩

/-- **The projector never throws by itself**: it moves the intent it finds
and frees the slot, or leaves the store and says why. -/
theorem project_cases (allowed : List String) (event : EscrowEvent)
    (store : Store) :
    ∃ store' outcome, project allowed event store = .ok (store', outcome) ∧
      (outcome.result ≠ .applied ∧ outcome.slotFreed = false ∧ store' = store ∨
        outcome.result = .applied ∧ event.contractAddress ∈ allowed ∧
          ∃ intent, findActiveIntent event store.intents = some intent ∧
            store' = freeSlot event (moveIntent event intent store)) := by
  unfold project
  by_cases haddress : event.contractAddress ∈ allowed
  · rw [if_neg (not_not.mpr haddress)]
    cases hfound : findActiveIntent event store.intents with
    | none => exact ⟨_, _, rfl, .inl ⟨nofun, rfl, rfl⟩⟩
    | some intent =>
      dsimp only
      split_ifs
      · exact ⟨_, _, rfl, .inl ⟨nofun, rfl, rfl⟩⟩
      · exact ⟨_, _, rfl, .inl ⟨nofun, rfl, rfl⟩⟩
      · exact ⟨_, _, rfl, .inl ⟨nofun, rfl, rfl⟩⟩
      · obtain ⟨outcome, happlied, htransition⟩ :=
          transition_eq event (findActiveIntent_stored hfound)
        exact ⟨_, _, htransition, .inr ⟨happlied, haddress, intent, rfl, rfl⟩⟩
  · rw [if_pos haddress]
    exact ⟨_, _, rfl, .inl ⟨nofun, rfl, rfl⟩⟩

/-- **`project` is the two writes behind the checks**, when nobody comes
between. -/
theorem projectStore_eq (allowed : List String) (event : EscrowEvent)
    (store : Store) :
    projectStore allowed event store =
      if event.contractAddress ∉ allowed then store
      else match toMove event (findActiveIntent event store.intents) with
        | none => store
        | some intent => freeSlot event (moveIntent event intent store) := by
  unfold projectStore project
  by_cases haddress : event.contractAddress ∉ allowed
  · rw [if_pos haddress, if_pos haddress]
  · rw [if_neg haddress, if_neg haddress]
    cases hfound : findActiveIntent event store.intents with
    | none => rfl
    | some intent =>
      simp only [toMove]
      split_ifs
      · rfl
      · rfl
      · rfl
      · obtain ⟨outcome, -, htransition⟩ := transition_eq event (findActiveIntent_stored hfound)
        rw [htransition]

/-! ## What a segment does -/

/-- Everything a segment can do to the shared state, and where it leaves
the call. -/
inductive Segment (contractAddressAllowList : List String) (s : Shared) :
    Pc → Shared → Coop.Task Pc (Option ListenerError) → Prop
  | finished : Segment contractAddressAllowList s (.next []) s (.done none)
  | claimFailed (event : EscrowEvent) (rest : List EscrowEvent) :
      Segment contractAddressAllowList s (.next (event :: rest)) s
        (.done (some (.claim (eventKey event))))
  | duplicate (event : EscrowEvent) (rest : List EscrowEvent) :
      Segment contractAddressAllowList s (.next (event :: rest)) s (.waiting (.next rest))
  | granted (event : EscrowEvent) (rest : List EscrowEvent)
      (hfree : s.claims (eventKey event) = false) :
      Segment contractAddressAllowList s (.next (event :: rest)) (s.grant event)
        (.waiting (.find event rest))
  | rejected (event : EscrowEvent) (rest : List EscrowEvent)
      (haddress : event.contractAddress ∉ contractAddressAllowList) :
      Segment contractAddressAllowList s (.find event rest) (s.conclude event)
        (.waiting (.next rest))
  | read (event : EscrowEvent) (rest : List EscrowEvent)
      (haddress : event.contractAddress ∈ contractAddressAllowList) :
      Segment contractAddressAllowList s (.find event rest) s
        (.waiting (.found event (findActiveIntent event s.store.intents) rest))
  | readFailed (event : EscrowEvent) (rest : List EscrowEvent) :
      Segment contractAddressAllowList s (.find event rest) (s.abandon event)
        (.waiting (.givingBack event .unavailable))
  | unmoved (event : EscrowEvent) (intent : Option BookingIntentRecord) (rest : List EscrowEvent)
      (hmove : toMove event intent = none) :
      Segment contractAddressAllowList s (.found event intent rest) (s.conclude event)
        (.waiting (.next rest))
  | moved (event : EscrowEvent) (intent : BookingIntentRecord) (rest : List EscrowEvent)
      (hmove : toMove event (some intent) = some intent) :
      Segment contractAddressAllowList s (.found event (some intent) rest)
        { s with store := moveIntent event intent s.store } (.waiting (.written event rest))
  | writeFailed (event : EscrowEvent) (intent : Option BookingIntentRecord)
      (rest : List EscrowEvent) (err : ProjectionError) :
      Segment contractAddressAllowList s (.found event intent rest) (s.abandon event)
        (.waiting (.givingBack event err))
  | freed (event : EscrowEvent) (rest : List EscrowEvent) :
      Segment contractAddressAllowList s (.written event rest)
        (Shared.conclude { s with store := freeSlot event s.store } event) (.waiting (.next rest))
  | givenBack (event : EscrowEvent) (err : ProjectionError) :
      Segment contractAddressAllowList s (.givingBack event err) (s.giveBack event)
        (.done (some (.projection (eventKey event) err)))
  | claimStays (event : EscrowEvent) (err : ProjectionError) :
      Segment contractAddressAllowList s (.givingBack event err) s
        (.done (some (.projection (eventKey event) err)))

variable {allowed : List String}

theorem resume_segment (e : Env) (pc : Pc) (s : Shared) :
    Segment allowed s pc (resume allowed e pc s).1
      (resume allowed e pc s).2 := by
  cases pc with
  | next rest =>
    cases rest with
    | nil => exact .finished
    | cons event rest =>
      unfold resume
      dsimp only
      split_ifs with hfails hclaimed
      · exact .claimFailed event rest
      · exact .duplicate event rest
      · exact .granted event rest (by simpa using hclaimed)
  | find event rest =>
    unfold resume
    dsimp only
    split
    next haddress => exact .rejected event rest haddress
    next haddress =>
      split
      · exact .readFailed event rest
      · exact .read event rest (Decidable.not_not.mp haddress)
  | found event intent rest =>
    unfold resume
    dsimp only
    cases hmove : toMove event intent with
    | none => exact .unmoved event intent rest hmove
    | some moved =>
      obtain rfl := toMove_eq_some hmove
      dsimp only
      split_ifs with hfails
      · exact .writeFailed event (some moved) rest .unavailable
      · cases hstored : s.store.intents.findById moved.id with
        | none =>
          simp only [BookingIntents.updateStatus, BookingIntents.update, hstored]
          exact .writeFailed event (some moved) rest (.intentNotFound moved.id)
        | some stored =>
          obtain ⟨updated, hupdate⟩ := updateStatus_stored event
            (Option.isSome_iff_exists.mpr ⟨stored, hstored⟩)
          rw [hupdate]
          exact .moved event moved rest hmove
  | written event rest =>
    obtain ⟨freed, hrelease⟩ := releaseAfter_eq event s.store
    have hstore : { s.store with slots := (freeSlot event s.store).slots }
        = freeSlot event s.store := by
      unfold freeSlot
      split <;> rfl
    simp only [resume, hrelease, concludeWith, hstore]
    exact .freed event rest
  | givingBack event err =>
    unfold resume
    split_ifs with hfails
    · exact .claimStays event err
    · exact .givenBack event err

/-! ## No event is projected twice -/

/-- The key of the claim a call holds. -/
def Pc.claimed : Pc → Option String
  | .next _ => none
  | .find event _ => some (eventKey event)
  | .found event _ _ => some (eventKey event)
  | .written event _ => some (eventKey event)
  | .givingBack event _ => some (eventKey event)

/-- A claim a call holds is taken, and its event is not projected yet. -/
def Pending (s : Shared) (pc : Pc) : Prop :=
  ∀ key, pc.claimed = some key → s.claims key = true ∧ ∀ event ∈ s.projected, eventKey event ≠ key

/-- The claims of the projected events are taken, one for each. -/
structure Kept (s : Shared) : Prop where
  taken : ∀ event ∈ s.projected, s.claims (eventKey event) = true
  once : (s.projected.map eventKey).Nodup

variable {s s' : Shared} {pc pc' : Pc} {t : Coop.Task Pc (Option ListenerError)} {key : String}

theorem Kept.conclude (h : Kept s) {event : EscrowEvent}
    (hclaimed : s.claims (eventKey event) = true)
    (hnew : ∀ other ∈ s.projected, eventKey other ≠ eventKey event) : Kept (s.conclude event) where
  taken := forall_mem_concat h.taken hclaimed
  once := nodup_map_concat h.once hnew

theorem claims_grant_of (s : Shared) (event : EscrowEvent) (h : s.claims key = true) :
    (s.grant event).claims key = true := by
  by_cases hkey : key = eventKey event
  · simp [Shared.grant, hkey]
  · simp [Shared.grant, update_of_ne hkey, h]

theorem Segment.kept (h : Segment allowed s pc s' t) (hpc : Pending s pc)
    (hkept : Kept s) : Kept s' := by
  cases h with
  | finished | claimFailed | duplicate | read | claimStays => exact hkept
  | readFailed | writeFailed | moved => exact ⟨hkept.taken, hkept.once⟩
  | granted event rest hfree =>
    exact ⟨fun other hmem => claims_grant_of s event (hkept.taken other hmem), hkept.once⟩
  | rejected | unmoved =>
    obtain ⟨hclaimed, hnew⟩ := hpc _ rfl
    exact hkept.conclude hclaimed hnew
  | freed event rest =>
    obtain ⟨hclaimed, hnew⟩ := hpc _ rfl
    have hkept' : Kept { s with store := freeSlot event s.store } := ⟨hkept.taken, hkept.once⟩
    exact hkept'.conclude hclaimed hnew
  | givenBack event err =>
    -- the claim that goes is not that of a projected event
    obtain ⟨-, hnew⟩ := hpc _ rfl
    refine ⟨fun other hmem => ?_, hkept.once⟩
    exact (update_of_ne (hnew other hmem) ..).trans (hkept.taken other hmem)

/-- The call that ran is pending where it stops. -/
theorem Segment.pending (h : Segment allowed s pc s' (.waiting pc'))
    (hpc : Pending s pc) (hkept : Kept s) : Pending s' pc' := by
  cases h with
  | duplicate | rejected | unmoved | freed => exact nofun
  | read | readFailed | writeFailed | moved => exact hpc
  | granted event rest hfree =>
    intro key hkey
    cases hkey
    refine ⟨by simp [Shared.grant], fun other hmem heq => ?_⟩
    have hclaimed := hkept.taken other hmem
    rw [heq, hfree] at hclaimed
    cases hclaimed

/-- A call that holds another claim stays pending. -/
theorem Segment.pending_other (h : Segment allowed s pc s' t)
    (hpc' : Pending s pc') (hother : ∀ key, pc.claimed = some key → pc'.claimed ≠ some key) :
    Pending s' pc' := by
  intro key hkey
  obtain ⟨hclaimed, hnew⟩ := hpc' key hkey
  have hconclude : ∀ event, pc.claimed = some (eventKey event) →
      ∀ other ∈ s.projected ++ [event], eventKey other ≠ key := by
    refine fun event hevent => forall_mem_concat hnew ?_
    rintro rfl
    exact hother _ hevent hkey
  cases h with
  | finished | claimFailed | duplicate | read | claimStays | readFailed | writeFailed | moved =>
    exact ⟨hclaimed, hnew⟩
  | granted event rest hfree => exact ⟨claims_grant_of s event hclaimed, hnew⟩
  | rejected event | unmoved event | freed event => exact ⟨hclaimed, hconclude event rfl⟩
  | givenBack event err =>
    have hne : key ≠ eventKey event := by
      rintro rfl
      exact hother _ rfl hkey
    exact ⟨(update_of_ne hne ..).trans hclaimed, hnew⟩

/-- A claim is held on, or taken when it is free. -/
theorem Segment.claimed (h : Segment allowed s pc s' (.waiting pc'))
    (hkey : pc'.claimed = some key) : pc.claimed = some key ∨ s.claims key = false := by
  cases h with
  | duplicate | rejected | unmoved | freed => cases hkey
  | read | readFailed | writeFailed | moved => exact .inl hkey
  | granted event rest hfree =>
    cases hkey
    exact .inr hfree

/-- What the claims are worth: one call for each, and those of the projected
events are never given back. -/
structure Claimed (σ : System) : Prop where
  kept : Kept σ.shared
  pending : Held Pending σ
  exclusive : Exclusive Pc.claimed σ

theorem claimed_opened (store : Store) : Claimed (opened store) where
  kept := ⟨by simp [opened], List.nodup_nil⟩
  pending c hc := by simp [opened] at hc
  exclusive i j c c' key hi := by simp [opened] at hi

theorem Claimed.step {σ : System} (h : Claimed σ) (k : Coop.Cmd Delivery Env) :
    Claimed (Coop.step (program allowed) σ k) := by
  refine ⟨shared_step h.kept ?_, h.pending.step_others (fun _ _ => nofun) ?_ ?_,
    h.exclusive.step (fun _ => rfl) ?_⟩
  · intro e pc hresumed
    exact (resume_segment e pc σ.shared).kept (h.pending.at_resumed hresumed) h.kept
  · intro e pc pc' _ hpc hnext
    have hseg : Segment allowed σ.shared pc _ _ := resume_segment e pc σ.shared
    exact Segment.pending (hnext ▸ hseg) hpc h.kept
  · intro i e q pc j q' pc' _ hi hne hj _ hpc'
    refine (resume_segment e pc σ.shared).pending_other hpc' fun key hkey hkey' => hne ?_
    exact h.exclusive j i _ _ key hj hi hkey' hkey
  · intro e pc pc' key _ hnext hkey
    have hseg : Segment allowed σ.shared pc _ _ := resume_segment e pc σ.shared
    refine (Segment.claimed (hnext ▸ hseg) hkey).imp_right fun hfree c hc hheld => ?_
    -- a claim that is held is taken
    obtain ⟨pc', hpc', hkey'⟩ := heldBy_eq_some.mp hheld
    have hclaimed := (h.pending c hc pc' hpc' key hkey').1
    rw [hfree] at hclaimed
    cases hclaimed

end ListenerInstances

end ChronoPay
