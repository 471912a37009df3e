import ChronoPay.Lib.Parts
import ChronoPay.ListenerInstances

/-!
# ListenerSerial — do interleaved instances come to what one would?

Each event is projected at most once, whatever the interleaving
(`ListenerInstances`). The OUTCOME is that of one instance only while no
event is claimed as long as another one of the same slot is in flight:
between the read of an intent and the write of its status the event
decides on a status that may be gone by then.

Events of different slots are independent, so under that condition what
counts is the order on each slot, and there the order of the projections
is that of the claims.
-/

namespace ChronoPay

open List

namespace ListenerInstances

open Coop EscrowListener EscrowStateProjector KeyedList Machine

variable {allowed : List String} {event : EscrowEvent}
  {intent : BookingIntentRecord} {store store' : Store} {slotId : String}

/-! ## The slots as parts of the store -/

/-- The stores agree on a slot: on its row, and on the intents for it. -/
structure SlotAgree (slotId : String) (store store' : Store) : Prop where
  slots : AgreeOn SlotRecord.id SlotRecord.id slotId store.slots store'.slots
  intents : AgreeOn BookingIntentRecord.id BookingIntentRecord.slotId slotId
    store.intents.intents store'.intents.intents
  sequence : store.intents.sequence = store'.intents.sequence

def bySlot : Parts.View String Store where
  Agree := SlotAgree
  refl _ _ := ⟨.refl _ _ _ _, .refl _ _ _ _, rfl⟩
  symm h := ⟨h.slots.symm, h.intents.symm, h.sequence.symm⟩
  trans h h' := ⟨h.slots.trans h'.slots, h.intents.trans h'.intents, h.sequence.trans h'.sequence⟩

theorem eq_of_slotAgree (h : ∀ slotId, SlotAgree slotId store store') : store = store' := by
  obtain ⟨slots, intents, sequence⟩ := store
  obtain ⟨slots', intents', sequence'⟩ := store'
  obtain rfl : slots = slots' := AgreeOn.eq fun slotId => (h slotId).slots
  obtain rfl : intents = intents' := AgreeOn.eq fun slotId => (h slotId).intents
  obtain rfl : sequence = sequence' := (h "").sequence
  rfl

/-- No two intents have one id. -/
def DistinctIds (store : Store) : Prop := (store.intents.intents.map BookingIntentRecord.id).Nodup

instance (store : Store) : Decidable (DistinctIds store) :=
  inferInstanceAs (Decidable (List.Nodup _))

theorem findActiveIntent_slotId (h : findActiveIntent event store.intents = some intent) :
    intent.slotId = event.slotId := by
  unfold findActiveIntent at h
  split at h
  · split at h
    · cases h
    · split at h
      · cases h
      next hslot =>
        cases h
        exact Decidable.not_not.mp hslot
  · simpa using (mem_filter.mp (BookingIntents.findLatestBySlotId_mem_filter h)).2

theorem findActiveIntent_of_id {id : String} {intents : BookingIntents}
    (h : event.bookingIntentId.filter (· ≠ "") = some id) :
    findActiveIntent event intents
      = (intents.findById id).filter fun intent => intent.slotId = event.slotId := by
  unfold findActiveIntent
  rw [h]
  dsimp only
  cases intents.findById id with
  | none => rfl
  | some byId => by_cases hslot : byId.slotId = event.slotId <;> simp [Option.filter, hslot]

/-- The projector looks at its own slot only. -/
theorem SlotAgree.findActiveIntent_eq (h : SlotAgree event.slotId store store') :
    findActiveIntent event store.intents = findActiveIntent event store'.intents := by
  cases hid : event.bookingIntentId.filter (· ≠ "") with
  | some id =>
    rw [findActiveIntent_of_id hid, findActiveIntent_of_id hid]
    exact h.intents.get id
  | none =>
    unfold findActiveIntent BookingIntents.findLatestBySlotId
    rw [hid, h.intents.filter]

/-! ## The projector is local to the slot of its event -/

theorem freeSlot_local (event : EscrowEvent) :
    Parts.LocalTo bySlot DistinctIds event.slotId (freeSlot event) where
  valid h := by
    unfold freeSlot
    split <;> exact h
  frame {store slotId} _ hne := by
    unfold freeSlot
    split
    · refine ⟨agreeOn_modify (fun _ => rfl) (fun _ => rfl) ?_, .refl _ _ _ _, rfl⟩
      intro slot hslot hid
      exact hne (hid.symm.trans (get_key hslot))
    · exact bySlot.refl slotId store
  congr _ _ h := by
    unfold freeSlot
    split
    · exact ⟨h.slots.modify (by exact fun _ => rfl) (by exact fun _ => rfl) _, h.intents, h.sequence⟩
    · exact h

theorem distinctIds_moveIntent (h : DistinctIds store) :
    DistinctIds (moveIntent event intent store) := by
  have hids : (moveIntent event intent store).intents.intents.map BookingIntentRecord.id
      = store.intents.intents.map BookingIntentRecord.id :=
    map_key_modify (by exact fun _ => rfl)
  unfold DistinctIds
  rw [hids]
  exact h

theorem moveIntent_frame (h : DistinctIds store) (hmem : intent ∈ store.intents.intents)
    (hslot : slotId ≠ intent.slotId) : SlotAgree slotId (moveIntent event intent store) store := by
  refine ⟨.refl _ _ _ _, agreeOn_modify (fun _ => rfl) (fun _ => rfl) ?_, rfl⟩
  intro stored hstored
  -- the first intent with the id is the intent itself
  have hself := get_key_of_mem h hmem
  cases hself.symm.trans hstored
  exact hslot.symm

theorem SlotAgree.moveIntent (h : SlotAgree slotId store store') :
    SlotAgree slotId (moveIntent event intent store) (moveIntent event intent store') :=
  ⟨h.slots, h.intents.modify (by exact fun _ => rfl) (by exact fun _ => rfl) _, h.sequence⟩

/-- The projector moves the intent it finds and frees the slot, or leaves
the store. -/
theorem projectStore_cases (allowed : List String) (event : EscrowEvent)
    (store : Store) :
    projectStore allowed event store = store ∨
    ∃ intent, findActiveIntent event store.intents = some intent ∧
      projectStore allowed event store
        = freeSlot event (moveIntent event intent store) := by
  rw [projectStore_eq]
  split
  · exact .inl rfl
  · split
    · exact .inl rfl
    next intent hmove => exact .inr ⟨intent, toMove_eq_some hmove, rfl⟩

/-- **Events of different slots are independent.** -/
theorem projectStore_local (allowed : List String) (event : EscrowEvent) :
    Parts.LocalTo bySlot DistinctIds event.slotId
      (projectStore allowed event) where
  valid {store} h := by
    rcases projectStore_cases allowed event store with heq | ⟨intent, -, heq⟩
    · rwa [heq]
    · rw [heq]
      exact (freeSlot_local event).valid (distinctIds_moveIntent h)
  frame {store slotId} h hne := by
    rcases projectStore_cases allowed event store with heq | ⟨intent, hfound, heq⟩
    · rw [heq]
      exact bySlot.refl slotId store
    · rw [heq]
      refine bySlot.trans ((freeSlot_local event).frame (distinctIds_moveIntent h) hne) ?_
      refine moveIntent_frame h (findActiveIntent_mem hfound) ?_
      rw [findActiveIntent_slotId hfound]
      exact hne
  congr {store store'} h h' hagree := by
    rw [projectStore_eq, projectStore_eq, SlotAgree.findActiveIntent_eq hagree]
    split
    · exact hagree
    · split
      · exact hagree
      · exact (freeSlot_local event).congr (distinctIds_moveIntent h) (distinctIds_moveIntent h')
          (SlotAgree.moveIntent hagree)

theorem serial_concat (allowed : List String) (store : Store)
    (events : List EscrowEvent) (event : EscrowEvent) :
    serial allowed store (events ++ [event])
      = projectStore allowed event
          (serial allowed store events) := by
  simp [serial]

theorem distinctIds_serial (h : DistinctIds store) (events : List EscrowEvent) :
    DistinctIds (serial allowed store events) :=
  Parts.valid_foldl (projectStore_local allowed) h events

/-! ## Events in flight -/

/-- The slot of the event a call has in flight. An event whose projection
threw is not in flight any more. -/
def Pc.slot : Pc → Option String
  | .next _ => none
  | .find event _ => some event.slotId
  | .found event _ _ => some event.slotId
  | .written event _ => some event.slotId
  | .givingBack _ _ => none

/-- The slot of the event a call is in the middle of writing. -/
def Pc.writing : Pc → Option String
  | .written event _ => some event.slotId
  | _ => none

def onSlot (slotId : String) (events : List EscrowEvent) : List EscrowEvent :=
  events.filter fun event => event.slotId = slotId

@[simp] theorem onSlot_append (slotId : String) (events events' : List EscrowEvent) :
    onSlot slotId (events ++ events') = onSlot slotId events ++ onSlot slotId events' :=
  filter_append ..

theorem onSlot_self (event : EscrowEvent) : onSlot event.slotId [event] = [event] := by
  simp [onSlot]

theorem onSlot_ne (h : slotId ≠ event.slotId) : onSlot slotId [event] = [] := by
  simp [onSlot, h.symm]

/-- Of the events of its slot, this one is the last to be granted, and the
only one not projected. -/
def Latest (s : Shared) (event : EscrowEvent) : Prop :=
  onSlot event.slotId s.granted = onSlot event.slotId s.projected ++ [event]

/-- What a call in flight relies on: the intent it read is what it would
read now, and once it has written, freeing the slot is all that is left. -/
def Current (contractAddressAllowList : List String) (initial : Store) (s : Shared) : Pc → Prop
  | .next _ => True
  | .find event _ => Latest s event
  | .found event intent _ =>
    Latest s event ∧ event.contractAddress ∈ contractAddressAllowList ∧
      findActiveIntent event s.store.intents = intent
  | .written event _ =>
    Latest s event ∧ SlotAgree event.slotId (freeSlot event s.store)
      (projectStore contractAddressAllowList event
        (serial contractAddressAllowList initial s.projected))
  | .givingBack _ _ => True

variable {initial : Store} {s s' : Shared} {pc pc' : Pc}
  {t : Coop.Task Pc (Option ListenerError)}

/-- What a segment leaves alone: a slot that neither was nor is in flight. -/
structure Elsewhere (contractAddressAllowList : List String) (initial : Store) (slotId : String)
    (s s' : Shared) : Prop where
  granted : onSlot slotId s'.granted = onSlot slotId s.granted
  projected : onSlot slotId s'.projected = onSlot slotId s.projected
  store : SlotAgree slotId s'.store s.store
  serial : SlotAgree slotId (serial contractAddressAllowList initial s'.projected)
    (serial contractAddressAllowList initial s.projected)

/-- The slot in flight where a call is. -/
def slotOf : Coop.Task Pc (Option ListenerError) → Option String
  | .waiting pc => pc.slot
  | .done _ => none

theorem onSlot_abandon (slotId : String) (s : Shared) (event : EscrowEvent) :
    onSlot slotId (s.abandon event).granted
      = (onSlot slotId s.granted).filter fun other => other ≠ event := by
  unfold onSlot Shared.abandon
  rw [filter_filter, filter_filter]
  exact filter_congr fun _ _ => Bool.and_comm _ _

theorem onSlot_abandon_ne (h : slotId ≠ event.slotId) :
    onSlot slotId (s.abandon event).granted = onSlot slotId s.granted := by
  rw [onSlot_abandon]
  refine filter_eq_self.mpr fun other hmem => ?_
  have hslot : other.slotId = slotId := by simpa using (mem_filter.mp hmem).2
  have hne : other ≠ event := by
    rintro rfl
    exact h hslot.symm
  simpa using hne

/-- Without the event whose projection threw, the slot is level again. -/
theorem Latest.abandon (h : Latest s event) (hnew : ∀ other ∈ s.projected, other ≠ event) :
    onSlot event.slotId (s.abandon event).granted = onSlot event.slotId s.projected := by
  rw [onSlot_abandon, h, filter_append]
  have hself : ([event].filter fun other => other ≠ event) = [] := by simp
  rw [hself, append_nil]
  refine filter_eq_self.mpr fun other hmem => ?_
  simpa using hnew other (mem_of_mem_filter hmem)

theorem Latest.conclude (h : Latest s event) :
    onSlot event.slotId (s.conclude event).granted
      = onSlot event.slotId (s.conclude event).projected := by
  unfold Shared.conclude
  rw [onSlot_append, onSlot_self]
  exact h

namespace Elsewhere

theorem refl (s : Shared) : Elsewhere allowed initial slotId s s :=
  ⟨rfl, rfl, bySlot.refl _ _, bySlot.refl _ _⟩

theorem grant (h : slotId ≠ event.slotId) : Elsewhere allowed initial slotId s (s.grant event) := by
  refine ⟨?_, rfl, bySlot.refl _ _, bySlot.refl _ _⟩
  simp only [Shared.grant, onSlot_append, onSlot_ne h, append_nil]

theorem abandon (h : slotId ≠ event.slotId) :
    Elsewhere allowed initial slotId s (s.abandon event) :=
  ⟨onSlot_abandon_ne h, rfl, bySlot.refl _ _, bySlot.refl _ _⟩

theorem conclude (hinitial : DistinctIds initial) (h : slotId ≠ event.slotId) :
    Elsewhere allowed initial slotId s (s.conclude event) := by
  refine ⟨rfl, ?_, bySlot.refl _ _, ?_⟩
  · simp only [Shared.conclude, onSlot_append, onSlot_ne h, append_nil]
  · unfold Shared.conclude
    rw [serial_concat]
    exact (projectStore_local _ event).frame (distinctIds_serial hinitial _) h

theorem write {store : Store} (h : SlotAgree slotId store s.store) :
    Elsewhere allowed initial slotId s { s with store } :=
  ⟨rfl, rfl, h, bySlot.refl _ _⟩

theorem trans {s'' : Shared} (h : Elsewhere allowed initial slotId s s')
    (h' : Elsewhere allowed initial slotId s' s'') :
    Elsewhere allowed initial slotId s s'' :=
  ⟨h'.granted.trans h.granted, h'.projected.trans h.projected, bySlot.trans h'.store h.store,
    bySlot.trans h'.serial h.serial⟩

end Elsewhere

/-- **A segment stays on the slot of its event.** -/
theorem Segment.elsewhere (h : Segment allowed s pc s' t)
    (hinitial : DistinctIds initial) (hdistinct : DistinctIds s.store)
    (hcurrent : Current allowed initial s pc) (hpc : pc.slot ≠ some slotId)
    (ht : slotOf t ≠ some slotId) :
    Elsewhere allowed initial slotId s s' := by
  have hne : ∀ event : EscrowEvent, some event.slotId ≠ some slotId → slotId ≠ event.slotId := by
    rintro event h rfl
    exact h rfl
  cases h with
  | finished | claimFailed | duplicate | read | claimStays => exact .refl s
  | givenBack => exact ⟨rfl, rfl, bySlot.refl _ _, bySlot.refl _ _⟩
  | granted event rest _ => exact .grant (hne event ht)
  | rejected event | unmoved event => exact .conclude hinitial (hne event hpc)
  | readFailed event | writeFailed event => exact .abandon (hne event hpc)
  | moved event intent rest _ =>
    obtain ⟨-, -, hfound⟩ := hcurrent
    refine .write (moveIntent_frame hdistinct (findActiveIntent_mem hfound) ?_)
    rw [findActiveIntent_slotId hfound]
    exact hne event hpc
  | freed event rest =>
    have hwrite := (freeSlot_local event).frame hdistinct (hne event hpc)
    exact (Elsewhere.write hwrite).trans (.conclude hinitial (hne event hpc))

/-- What a call relies on is kept by what happens elsewhere. -/
theorem Current.elsewhere (hcurrent : Current allowed initial s pc)
    (h : ∀ slotId, pc.slot = some slotId → Elsewhere allowed initial slotId s s')
    (hinitial : DistinctIds initial) (hdistinct : DistinctIds s.store)
    (hdistinct' : DistinctIds s'.store) :
    Current allowed initial s' pc := by
  have hlatest : ∀ event : EscrowEvent, pc.slot = some event.slotId → Latest s event →
      Latest s' event := by
    intro event hslot hlatest
    have helse := h _ hslot
    unfold Latest
    rw [helse.granted, helse.projected]
    exact hlatest
  cases pc with
  | next | givingBack => trivial
  | find event rest => exact hlatest event rfl hcurrent
  | found event intent rest =>
    obtain ⟨hlast, haddress, hfound⟩ := hcurrent
    refine ⟨hlatest event rfl hlast, haddress, ?_⟩
    rw [SlotAgree.findActiveIntent_eq (h _ rfl).store]
    exact hfound
  | written event rest =>
    obtain ⟨hlast, hleft⟩ := hcurrent
    have helse := h _ rfl
    refine ⟨hlatest event rfl hlast, ?_⟩
    have hfree := (freeSlot_local event).congr hdistinct' hdistinct helse.store
    have hproject := (projectStore_local allowed event).congr
      (distinctIds_serial hinitial _) (distinctIds_serial hinitial _) (bySlot.symm helse.serial)
    exact bySlot.trans hfree (bySlot.trans hleft hproject)

/-- **What the event in flight relies on**, established by its own segments. -/
theorem Segment.current (h : Segment allowed s pc s' (.waiting pc'))
    (hinitial : DistinctIds initial) (hdistinct : DistinctIds s.store)
    (hcurrent : Current allowed initial s pc)
    (hlevel : ∀ slotId, pc'.slot = some slotId → pc.slot = none →
      onSlot slotId s.granted = onSlot slotId s.projected)
    (hstored : ∀ slotId, pc'.writing = some slotId →
      SlotAgree slotId s.store (serial allowed initial s.projected)) :
    Current allowed initial s' pc' := by
  cases h with
  | duplicate | rejected | unmoved | freed | readFailed | writeFailed => trivial
  | granted event rest _ =>
    have hbefore := hlevel event.slotId rfl rfl
    simp only [Current, Latest, Shared.grant, onSlot_append, onSlot_self, hbefore]
  | read event rest haddress => exact ⟨hcurrent, haddress, rfl⟩
  | moved event intent rest hmove =>
    obtain ⟨hlast, haddress, hfound⟩ := hcurrent
    refine ⟨hlast, ?_⟩
    -- the two writes are the projection of the store as it is
    have hproject : projectStore allowed event s.store
        = freeSlot event (moveIntent event intent s.store) := by
      rw [projectStore_eq, if_neg (Decidable.not_not.mpr haddress), hfound, hmove]
    rw [← hproject]
    exact (projectStore_local allowed event).congr hdistinct
      (distinctIds_serial hinitial _) (hstored event.slotId rfl)

/-- The event in flight ends: granted and projected are level on its slot. -/
theorem Segment.level (h : Segment allowed s pc s' t) (hpending : Pending s pc)
    (hcurrent : Current allowed initial s pc) (hpc : pc.slot = some slotId)
    (ht : slotOf t ≠ some slotId) : onSlot slotId s'.granted = onSlot slotId s'.projected := by
  have hnew : ∀ event, pc.claimed = some (eventKey event) →
      ∀ other ∈ s.projected, other ≠ event := by
    rintro event hkey other hmem rfl
    exact (hpending _ hkey).2 other hmem rfl
  cases h with
  | finished | claimFailed | duplicate | granted | givenBack | claimStays => cases hpc
  | read | moved => exact absurd hpc ht
  | rejected event rest _ =>
    cases hpc
    exact Latest.conclude hcurrent
  | readFailed event rest =>
    cases hpc
    exact Latest.abandon hcurrent (hnew event rfl)
  | unmoved event intent rest _ =>
    cases hpc
    exact Latest.conclude hcurrent.1
  | writeFailed event intent rest err =>
    cases hpc
    exact Latest.abandon hcurrent.1 (hnew event rfl)
  | freed event rest =>
    cases hpc
    have hlast : Latest { s with store := freeSlot event s.store } event := hcurrent.1
    exact hlast.conclude

/-- An event that changes nothing is projected. -/
theorem slotAgree_conclude (hinitial : DistinctIds initial) (hdistinct : DistinctIds s.store)
    (hsame : projectStore allowed event s.store = s.store)
    (h : SlotAgree event.slotId s.store (serial allowed initial s.projected)) :
    SlotAgree event.slotId s.store
      (serial allowed initial (s.conclude event).projected) := by
  unfold Shared.conclude
  rw [serial_concat]
  have hcongr := (projectStore_local allowed event).congr hdistinct
    (distinctIds_serial hinitial _) h
  rw [hsame] at hcongr
  exact hcongr

/-- **The store of a slot that is not being written** is that of the
projections so far. -/
theorem Segment.stored (h : Segment allowed s pc s' t)
    (hinitial : DistinctIds initial) (hdistinct : DistinctIds s.store)
    (hcurrent : Current allowed initial s pc) (hpc : pc.slot = some slotId)
    (ht : ∀ pc', t = .waiting pc' → pc'.writing ≠ some slotId)
    (hbefore : pc.writing ≠ some slotId →
      SlotAgree slotId s.store (serial allowed initial s.projected)) :
    SlotAgree slotId s'.store (serial allowed initial s'.projected) := by
  cases h with
  | finished | claimFailed | duplicate | granted | givenBack | claimStays => cases hpc
  | read | readFailed | writeFailed => exact hbefore nofun
  | rejected event rest haddress =>
    cases hpc
    have hsame : projectStore allowed event s.store = s.store := by
      rw [projectStore_eq, if_pos haddress]
    exact slotAgree_conclude hinitial hdistinct hsame (hbefore nofun)
  | unmoved event intent rest hmove =>
    cases hpc
    obtain ⟨-, haddress, hfound⟩ := hcurrent
    have hsame : projectStore allowed event s.store = s.store := by
      rw [projectStore_eq, if_neg (Decidable.not_not.mpr haddress), hfound, hmove]
    exact slotAgree_conclude hinitial hdistinct hsame (hbefore nofun)
  | moved event intent rest _ => exact absurd hpc (ht _ rfl)
  | freed event rest =>
    cases hpc
    unfold Shared.conclude
    rw [serial_concat]
    exact hcurrent.2

theorem Segment.distinctIds (h : Segment allowed s pc s' t)
    (hdistinct : DistinctIds s.store) : DistinctIds s'.store := by
  cases h with
  | moved => exact distinctIds_moveIntent hdistinct
  | freed event rest => exact (freeSlot_local event).valid hdistinct
  | finished | claimFailed | duplicate | granted | rejected | read | readFailed | unmoved
  | writeFailed | givenBack | claimStays => exact hdistinct

/-! ## Runs whose events of one slot do not overlap -/

abbrev Cmd := Coop.Cmd Delivery Env

/-- An event is granted only while no event of its slot is in flight. -/
def Apart (σ : System) (k : Cmd) : Prop :=
  match resumed σ k with
  | some (e, .next (event :: _)) =>
    e.fails = false → σ.shared.claims (eventKey event) = false → Free Pc.slot event.slotId σ
  | _ => True

instance (σ : System) (k : Cmd) : Decidable (Apart σ k) := by
  unfold Apart
  exact match resumed σ k with
    | some (_, .next (_ :: _)) => inferInstanceAs (Decidable (_ → _ → _))
    | some (_, .next []) | some (_, .find _ _) | some (_, .found _ _ _) | some (_, .written _ _)
    | some (_, .givingBack _ _) | none => .isTrue trivial

/-- The instances are in step with one that projects the same events. -/
structure InStep (contractAddressAllowList : List String) (initial : Store) (σ : System) :
    Prop where
  claimed : Claimed σ
  distinct : DistinctIds σ.shared.store
  exclusive : Exclusive Pc.slot σ
  current : Held (Current contractAddressAllowList initial) σ
  level : ∀ slotId, Free Pc.slot slotId σ →
    onSlot slotId σ.shared.granted = onSlot slotId σ.shared.projected
  stored : ∀ slotId, Free Pc.writing slotId σ →
    SlotAgree slotId σ.shared.store (serial contractAddressAllowList initial σ.shared.projected)

theorem inStep_opened (h : DistinctIds initial) : InStep allowed initial (opened initial) where
  claimed := claimed_opened initial
  distinct := h
  exclusive i j c c' slotId hi := by simp [opened] at hi
  current c hc := by simp [opened] at hc
  level _ _ := rfl
  stored slotId _ := bySlot.refl slotId initial

/-- A slot is in flight on, or becomes so when a claim is granted. -/
theorem Segment.taken (h : Segment allowed s pc s' t)
    (ht : slotOf t = some slotId) :
    pc.slot = some slotId ∨ ∃ event rest, pc = .next (event :: rest) ∧ event.slotId = slotId ∧
      s.claims (eventKey event) = false ∧ s' = s.grant event := by
  cases h with
  | finished | claimFailed | duplicate | rejected | readFailed | unmoved | writeFailed | freed
  | givenBack | claimStays => cases ht
  | read | moved => exact .inl ht
  | granted event rest hfree => exact .inr ⟨event, rest, rfl, Option.some.inj ht, hfree, rfl⟩

theorem writing_slot (h : pc.writing = some slotId) : pc.slot = some slotId := by
  cases pc with
  | written event rest => exact h
  | next | find | found | givingBack => cases h

variable {σ : System} {k : Cmd} {e : Env}

/-- In a run whose events are apart, a slot that a segment takes was free. -/
theorem Apart.free (hk : Apart σ k) (hresumed : resumed σ k = some (e, pc))
    (ht : slotOf (resume allowed e pc σ.shared).2 = some slotId)
    (hpc : pc.slot ≠ some slotId) : Free Pc.slot slotId σ := by
  rcases (resume_segment e pc σ.shared).taken ht with hslot |
    ⟨event, rest, rfl, rfl, hfree, -⟩
  · exact absurd hslot hpc
  · have hok : e.fails = false := by
      cases hfails : e.fails with
      | false => rfl
      | true =>
        simp only [resume, hfails, if_true] at ht
        cases ht
    simp only [Apart, hresumed] at hk
    exact hk hok hfree

/-- What the resumed call has in flight, no other call is writing. -/
theorem InStep.free_writing (h : InStep allowed initial σ)
    (hresumed : resumed σ k = some (e, pc)) (hslot : pc.slot = some slotId)
    (hwriting : pc.writing ≠ some slotId) : Free Pc.writing slotId σ := by
  intro c hc hheld
  obtain ⟨pc', hpc', hwriting'⟩ := heldBy_eq_some.mp hheld
  obtain ⟨i, q, -, hi⟩ := resumed_eq_some hresumed
  obtain ⟨j, hj⟩ := mem_iff_getElem?.mp hc
  have hheld' : heldBy Pc.slot c = some slotId :=
    heldBy_eq_some.mpr ⟨pc', hpc', writing_slot hwriting'⟩
  obtain rfl := h.exclusive i j _ _ slotId hi hj hslot hheld'
  cases hi.symm.trans hj
  cases hpc'
  exact hwriting hwriting'

theorem Segment.writing (h : Segment allowed s pc s' (.waiting pc'))
    (hwriting : pc'.writing = some slotId) : pc.slot = some slotId ∧ pc.writing = none := by
  cases h with
  | moved => exact ⟨hwriting, rfl⟩
  | duplicate | granted | rejected | read | readFailed | unmoved | writeFailed | freed =>
    cases hwriting

/-- The slot of a suspended call is elsewhere for a segment of another one. -/
theorem InStep.elsewhere_other (h : InStep allowed initial σ)
    (hinitial : DistinctIds initial) (hk : Apart σ k) {i j : Nat} {q q' : Delivery}
    (hki : k = .resume i e) (hi : σ.calls[i]? = some ⟨q, .waiting pc⟩) (hne : j ≠ i)
    (hj : σ.calls[j]? = some ⟨q', .waiting pc'⟩) (hslot : pc'.slot = some slotId) :
    Elsewhere allowed initial slotId σ.shared
      (resume allowed e pc σ.shared).1 := by
  have hcurrent := h.current _ (mem_of_getElem? hi) pc rfl
  have hpc : pc.slot ≠ some slotId := by
    intro hpc
    exact hne (h.exclusive j i _ _ slotId hj hi hslot hpc)
  refine (resume_segment e pc σ.shared).elsewhere hinitial h.distinct hcurrent hpc ?_
  intro ht
  have hresumed : resumed σ k = some (e, pc) := by
    subst hki
    simp only [resumed, hi]
  exact hk.free hresumed ht hpc _ (mem_of_getElem? hj) hslot

theorem InStep.step_current (h : InStep allowed initial σ)
    (hinitial : DistinctIds initial) (hk : Apart σ k) :
    Held (Current allowed initial)
      (Coop.step (program allowed) σ k) := by
  refine h.current.step_others (fun _ _ => trivial) ?_ ?_
  · intro e pc pc' hresumed hcurrent hnext
    have hseg : Segment allowed σ.shared pc _ _ := resume_segment e pc σ.shared
    have hself := Segment.current (hnext ▸ hseg) hinitial h.distinct hcurrent
    refine hself ?_ ?_
    · intro slotId hslot hnone
      have ht : slotOf (resume allowed e pc σ.shared).2 = some slotId :=
        (congrArg slotOf hnext).trans hslot
      exact h.level slotId (hk.free hresumed ht (by rw [hnone]; exact nofun))
    · intro slotId hwriting
      obtain ⟨hslot, hnone⟩ := Segment.writing (hnext ▸ hseg) hwriting
      exact h.stored slotId (h.free_writing hresumed hslot (by rw [hnone]; exact nofun))
  · intro i e q pc j q' pc' hki hi hne hj _ hcurrent'
    exact hcurrent'.elsewhere
      (fun slotId hslot => h.elsewhere_other hinitial hk hki hi hne hj hslot) hinitial h.distinct
      ((resume_segment e pc σ.shared).distinctIds h.distinct)

theorem InStep.step_level (h : InStep allowed initial σ)
    (hinitial : DistinctIds initial)
    (hfree : Free Pc.slot slotId (Coop.step (program allowed) σ k)) :
    onSlot slotId (Coop.step (program allowed) σ k).shared.granted
      = onSlot slotId (Coop.step (program allowed) σ k).shared.projected := by
  rw [step_shared]
  split
  next e pc hresumed =>
    have hcurrent := h.current.at_resumed hresumed
    have ht : slotOf (resume allowed e pc σ.shared).2 ≠ some slotId := by
      cases hnext : (resume allowed e pc σ.shared).2 with
      | waiting pc' => exact hfree.next hresumed hnext
      | done result => exact nofun
    by_cases hpc : pc.slot = some slotId
    · exact (resume_segment e pc σ.shared).level (h.claimed.pending.at_resumed hresumed) hcurrent
        hpc ht
    · have hbefore : Free Pc.slot slotId σ := by
        refine hfree.of_step fun e' pc' hresumed' => ?_
        cases hresumed.symm.trans hresumed'
        exact hpc
      have helse := (resume_segment e pc σ.shared).elsewhere hinitial h.distinct hcurrent hpc ht
      exact helse.granted.trans ((h.level slotId hbefore).trans helse.projected.symm)
  next hresumed => exact h.level slotId (hfree.of_step (by simp [hresumed]))

theorem InStep.step_stored (h : InStep allowed initial σ)
    (hinitial : DistinctIds initial)
    (hfree : Free Pc.writing slotId (Coop.step (program allowed) σ k)) :
    SlotAgree slotId (Coop.step (program allowed) σ k).shared.store
      (serial allowed initial
        (Coop.step (program allowed) σ k).shared.projected) := by
  rw [step_shared]
  split
  next e pc hresumed =>
    have hcurrent := h.current.at_resumed hresumed
    have hseg : Segment allowed σ.shared pc _ _ := resume_segment e pc σ.shared
    by_cases hpc : pc.slot = some slotId
    · refine hseg.stored hinitial h.distinct hcurrent hpc ?_ ?_
      · intro pc' hnext
        exact hfree.next hresumed hnext
      · intro hwriting
        exact h.stored slotId (h.free_writing hresumed hpc hwriting)
    · have hbefore : Free Pc.writing slotId σ := by
        refine hfree.of_step fun e' pc' hresumed' hwriting => ?_
        cases hresumed.symm.trans hresumed'
        exact hpc (writing_slot hwriting)
      have hstored := h.stored slotId hbefore
      by_cases ht : slotOf (resume allowed e pc σ.shared).2 = some slotId
      · -- a grant touches neither the store nor what is projected
        rcases hseg.taken ht with hslot | ⟨event, rest, -, -, -, hgrant⟩
        · exact absurd hslot hpc
        · change SlotAgree slotId (resume allowed e pc σ.shared).1.store
            (serial allowed initial
              (resume allowed e pc σ.shared).1.projected)
          rw [hgrant]
          exact hstored
      · have helse := hseg.elsewhere hinitial h.distinct hcurrent hpc ht
        exact bySlot.trans helse.store (bySlot.trans hstored (bySlot.symm helse.serial))
  next hresumed => exact h.stored slotId (hfree.of_step (by simp [hresumed]))

theorem InStep.step (h : InStep allowed initial σ) (hinitial : DistinctIds initial)
    (hk : Apart σ k) :
    InStep allowed initial
      (Coop.step (program allowed) σ k) where
  claimed := h.claimed.step k
  distinct := by
    refine shared_step (I := fun s : Shared => DistinctIds s.store) h.distinct ?_
    intro e pc _
    exact (resume_segment e pc σ.shared).distinctIds h.distinct
  exclusive := by
    refine h.exclusive.step (fun _ => rfl) ?_
    intro e pc pc' slotId hresumed hnext hslot
    by_cases hpc : pc.slot = some slotId
    · exact .inl hpc
    · exact .inr (hk.free hresumed ((congrArg slotOf hnext).trans hslot) hpc)
  current := h.step_current hinitial hk
  level _ hfree := h.step_level hinitial hfree
  stored _ hfree := h.step_stored hinitial hfree

/-! ## Nothing in flight -/

/-- Every call has returned. -/
def Quiet (σ : System) : Prop := ∀ c ∈ σ.calls, ∃ result, c.task = .done result

instance (σ : System) : Decidable (Quiet σ) :=
  decidable_of_iff (∀ c ∈ σ.calls, c.task.fuel (fun _ => 0) = 0)
    (forall₂_congr fun _ _ => Coop.Task.fuel_eq_zero)

theorem Quiet.free (h : Quiet σ) (token : Pc → Option String) (slotId : String) :
    Free token slotId σ := by
  intro c hc hheld
  obtain ⟨pc, hpc, -⟩ := heldBy_eq_some.mp hheld
  obtain ⟨result, hdone⟩ := h c hc
  cases hpc.symm.trans hdone

/-- The granted events are the projected ones. -/
theorem InStep.perm (h : InStep allowed initial σ) (hquiet : Quiet σ) :
    σ.shared.granted.Perm σ.shared.projected := by
  refine perm_iff_count.mpr fun event => ?_
  have hcount : ∀ events : List EscrowEvent,
      events.count event = (onSlot event.slotId events).count event := by
    intro events
    exact (count_filter (by simp)).symm
  rw [hcount, hcount σ.shared.projected, h.level event.slotId (hquiet.free _ _)]

theorem InStep.serial_eq (h : InStep allowed initial σ)
    (hinitial : DistinctIds initial) (hquiet : Quiet σ) :
    σ.shared.store = serial allowed initial σ.shared.granted := by
  refine eq_of_slotAgree fun slotId => ?_
  have hstored := h.stored slotId (hquiet.free _ _)
  have hlevel := h.level slotId (hquiet.free _ _)
  exact bySlot.trans hstored
    (Parts.agree_of_filter_eq (projectStore_local allowed) hinitial hlevel.symm)

/-- **Each event is projected at most once**, whatever the interleaving; and
while no event is claimed as long as another one of its slot is in flight,
the instances come to what one instance does with the claimed events, in the
order of the claims. -/
theorem projected_once_and_serial (contractAddressAllowList : List String) (initial : Store)
    (ks : List Cmd) :
    ((Coop.run (program contractAddressAllowList) (opened initial) ks).shared.projected.map
      fun event => (event.txHash.toLower, event.eventIndex)).Nodup ∧
    (DistinctIds initial →
      Along (Coop.step (program contractAddressAllowList)) Apart (opened initial) ks →
      Quiet (Coop.run (program contractAddressAllowList) (opened initial) ks) →
      (Coop.run (program contractAddressAllowList) (opened initial) ks).shared.granted.Perm
        (Coop.run (program contractAddressAllowList) (opened initial) ks).shared.projected ∧
      (Coop.run (program contractAddressAllowList) (opened initial) ks).shared.store
        = serial contractAddressAllowList initial
            (Coop.run (program contractAddressAllowList) (opened initial) ks).shared.granted) := by
  constructor
  · have hclaimed : Claimed (Coop.run (program contractAddressAllowList) (opened initial) ks) :=
      run_inv (fun _ k h => h.step k) (claimed_opened initial) ks
    refine List.Nodup.of_map (fun key : String × Nat => s!"{key.1}:{key.2}") ?_
    rw [map_map]
    exact hclaimed.kept.once
  · intro hinitial hks hquiet
    have hinstep := run_inv_along (I := InStep contractAddressAllowList initial)
      (fun _ _ h hk => h.step hinitial hk) (inStep_opened hinitial) hks
    exact ⟨hinstep.perm hquiet, hinstep.serial_eq hinitial hquiet⟩

def pendingIntent : BookingIntentRecord :=
  { id := "intent-1", slotId := "slot-1", professional := "pro", customerId := "buyer",
    startTime := 0, endTime := 1, status := .pending, createdAt := "" }

/-- A slot with one pending intent. -/
def oneBooking : Store where
  slots := [{ id := "slot-1", professional := "pro", startTime := 0, endTime := 1,
              bookable := false }]
  intents := { intents := [pendingIntent], sequence := 2 }

def bookingEvent (kind : EscrowEventKind) (eventIndex : Nat) : EscrowEvent :=
  { kind, txHash := "AB", eventIndex, ledgerSeq := 1, closeTime := 0, contractAddress := "C",
    slotId := "slot-1" }

/-- A page that holds the booking and then slashes it. -/
def heldThenSlashed : Delivery where
  safeTipSeq := 1
  events := [bookingEvent .held 0, bookingEvent .slashed 1]

/-- The page at two instances: the second one finds the first event taken,
and has the next one when the first instance is done with it. -/
def oneAfterTheOther : List Cmd :=
  [.call heldThenSlashed, .call heldThenSlashed, .resume 0 {}, .resume 1 {}, .resume 0 {},
    .resume 0 {}, .resume 0 {}, .resume 1 {}, .resume 0 {}, .resume 1 {}, .resume 1 {},
    .resume 1 {}, .resume 0 {}, .resume 1 {}]

theorem serial_oneAfterTheOther :
    (Coop.run (program ["C"]) (opened oneBooking) oneAfterTheOther).shared.store
      = serial ["C"] oneBooking
          (Coop.run (program ["C"]) (opened oneBooking) oneAfterTheOther).shared.granted :=
  ((projected_once_and_serial ["C"] oneBooking oneAfterTheOther).2 (by decide +kernel)
    (by decide +kernel) (by decide +kernel)).2

/-- The second instance claims and projects its event between the read and
the write of the first one. -/
def slashedInBetween : List Cmd :=
  [.call heldThenSlashed, .call heldThenSlashed, .resume 0 {}, .resume 0 {}, .resume 1 {},
    .resume 1 {}, .resume 1 {}, .resume 1 {}, .resume 1 {}, .resume 1 {}, .resume 0 {},
    .resume 0 {}, .resume 0 {}, .resume 0 {}]

/-- **A slashed booking is confirmed again.** Both calls have returned and
each event was projected once, `Held` claimed before `Slashed`; the intent is
confirmed, where one instance would have left it expired. -/
theorem slashedInBetween_not_serial :
    Quiet (Coop.run (program ["C"]) (opened oneBooking) slashedInBetween) ∧
    (Coop.run (program ["C"]) (opened oneBooking) slashedInBetween).shared.granted
      = heldThenSlashed.events ∧
    (Coop.run (program ["C"]) (opened oneBooking) slashedInBetween).shared.store
      ≠ serial ["C"] oneBooking heldThenSlashed.events ∧
    ((Coop.run (program ["C"]) (opened oneBooking) slashedInBetween).shared.store.intents.findById
      "intent-1").map (·.status) = some .confirmed ∧
    ((serial ["C"] oneBooking heldThenSlashed.events).intents.findById "intent-1").map (·.status)
      = some .expired := by
  decide +kernel

end ListenerInstances

end ChronoPay
