import ChronoPay.Subscriptions

/-!
# SubscriptionSafety — capacity and duplicates over every run

Two things are to hold of the repositories whatever is called: a product
has no more active subscriptions than its `maxSubscribers`, and a
subscriber has at most one active or paused subscription to a product.

The second one always holds. The first is checked by `subscribe` alone,
against the subscriptions that are active at that moment; a paused one
keeps no place. `resumeSubscription` then makes it active again without
looking. `Admits` names the two kinds of call that can break the
capacity, and the runs that keep it are exactly those without them.
-/

namespace ChronoPay.Subscriptions

open KeyedList List Machine

namespace Service

def WithinCapacity (s : Service) : Prop :=
  ∀ product ∈ s.products, ∀ max ∈ product.maxSubscribers,
    ((s.listActiveByProduct product.id).length : Int) ≤ max

def activeOf (productId : String) (sub : SubscriptionRecord) : Bool :=
  sub.productId = productId ∧ sub.status = .active

/-- An active or paused subscription of the pair. -/
def heldBy (productId subscriberId : String) (sub : SubscriptionRecord) : Bool :=
  sub.productId = productId ∧ sub.subscriberId = subscriberId ∧
    (sub.status = .active ∨ sub.status = .paused)

def OnePerSubscriber (s : Service) : Prop :=
  ∀ productId subscriberId, s.subs.countP (heldBy productId subscriberId) ≤ 1

theorem length_listActiveByProduct (s : Service) (productId : String) :
    (s.listActiveByProduct productId).length = s.subs.countP (activeOf productId) :=
  countP_eq_length_filter.symm

section

variable {s s' : Service} {p : SubscriptionRecord → Bool} {subId : String}
  {sub : SubscriptionRecord} {f : SubscriptionRecord → SubscriptionRecord}

theorem countP_addSub : (s.addSub sub).subs.countP p
    = s.subs.countP p + if p { sub with id := "sub-" ++ toString s.subSequence } then 1 else 0 := by
  rw [addSub, countP_append, countP_singleton]

theorem countP_updateSub_le (hfound : s.findById subId = some sub)
    (hp : p (f sub) = true → p sub = true) :
    (s.updateSub subId f).subs.countP p ≤ s.subs.countP p := by
  have hcount := countP_modify (f := f) p hfound
  dsimp only [updateSub]
  split at hcount
  · split at hcount <;> omega
  next hsub =>
    rw [if_neg fun h => hsub (hp h)] at hcount
    omega

theorem WithinCapacity.of_le (h : s.WithinCapacity) (hproducts : s'.products = s.products)
    (hle : ∀ productId, s'.subs.countP (activeOf productId) ≤ s.subs.countP (activeOf productId)) :
    s'.WithinCapacity := by
  intro product hp max hmax
  rw [hproducts] at hp
  have hold := h product hp max hmax
  rw [length_listActiveByProduct] at hold ⊢
  have := hle product.id
  omega

theorem OnePerSubscriber.of_le (h : s.OnePerSubscriber)
    (hle : ∀ productId subscriberId, s'.subs.countP (heldBy productId subscriberId)
      ≤ s.subs.countP (heldBy productId subscriberId)) : s'.OnePerSubscriber :=
  fun productId subscriberId => (hle productId subscriberId).trans (h productId subscriberId)

end

end Service

/-! ## Duplicates -/

open Service

theorem onePerSubscriber_empty : OnePerSubscriber {} := fun _ _ => Nat.zero_le 1

theorem step_onePerSubscriber {σ : System} (k : Cmd) (h : σ.service.OnePerSubscriber) :
    (step σ k).service.OnePerSubscriber := by
  have hchange := step_change σ k
  generalize step σ k = σ' at hchange
  cases hchange with
  | none | product | deactivated => exact h
  | @subscribed _ input _ hcheck =>
    intro productId subscriberId
    have hnone := (checkSubscribe_eq_ok hcheck).2.2
    rw [countP_addSub]
    split
    next hheld =>
      obtain ⟨hproduct, hsubscriber, -⟩ := of_decide_eq_true hheld
      have hzero : σ.service.subs.countP (heldBy productId subscriberId) = 0 := by
        rw [countP_eq_zero, ← hproduct, ← hsubscriber]
        exact find?_eq_none.mp hnone
      omega
    · exact h productId subscriberId
  | paused nowMs hfound hstatus | resumed hfound hstatus =>
    refine h.of_le fun _ _ => countP_updateSub_le hfound ?_
    simp +contextual [heldBy, hstatus]
  | cancelled nowMs hfound hstatus =>
    refine h.of_le fun _ _ => countP_updateSub_le hfound ?_
    simp [heldBy]
  | ticked hgen =>
    refine mintEach_inv (I := OnePerSubscriber) ?_ hgen h
    intro s subId f hf hs productId subscriberId
    rw [updateSub, countP_modify_of_forall fun c => by
      obtain ⟨-, hproduct, hsubscriber, hstatus⟩ := hf c
      rw [heldBy, heldBy, hproduct, hsubscriber, hstatus]]
    exact hs productId subscriberId

/-! ## Capacity -/

/-- What a call that changes something has to meet: a product is not
created with a negative limit, and a subscription is not resumed while
its product is full. -/
def Admits (σ : System) (k : Cmd) : Prop :=
  (step σ k).service ≠ σ.service → match k with
    | .createProduct input => ∀ max ∈ input.maxSubscribers, 0 ≤ max
    | .resume subId => ∀ sub ∈ σ.service.findById subId,
      ∀ product ∈ σ.service.findProduct sub.productId, ∀ max ∈ product.maxSubscribers,
        ((σ.service.listActiveByProduct product.id).length : Int) < max
    | _ => True

section

variable {s : Service}

theorem withinCapacity_empty : WithinCapacity {} := by
  intro product hp
  cases hp

theorem withinCapacity_addProduct (hs : s.Indexed) (h : s.WithinCapacity)
    (product : SubscriptionProductRecord) :
    (s.addProduct product).WithinCapacity ↔ ∀ max ∈ product.maxSubscribers, 0 ≤ max := by
  -- no subscription names the new id
  have hzero : s.subs.countP (activeOf ("sp-" ++ toString s.productSequence)) = 0 := by
    rw [countP_eq_zero]
    intro sub hsub hactive
    obtain ⟨p, hp⟩ := Option.isSome_iff_exists.mp (hs.found sub hsub)
    refine hs.products.fresh (label_injective _) (mem_of_get hp) ?_
    exact (get_key hp).trans (of_decide_eq_true hactive).1
  constructor
  · intro hnew max hmax
    have := hnew _ (mem_append_right _ (mem_singleton_self _)) max hmax
    omega
  · refine fun hmax => forall_mem_concat h fun max hm => ?_
    rw [length_listActiveByProduct]
    have := hmax max hm
    exact (Int.ofNat_le.mpr hzero.le).trans this

theorem withinCapacity_resume (hs : s.Indexed) (h : s.WithinCapacity) {subId : String}
    {sub : SubscriptionRecord} (hfound : s.findById subId = some sub)
    (hstatus : sub.status = .paused) :
    (s.updateSub subId fun c => { c with status := .active, pausedAt := none }).WithinCapacity ↔
      ∀ product ∈ s.findProduct sub.productId, ∀ max ∈ product.maxSubscribers,
        ((s.listActiveByProduct product.id).length : Int) < max := by
  have hcount : ∀ productId, (s.updateSub subId fun c =>
      { c with status := .active, pausedAt := none }).subs.countP (activeOf productId)
        = s.subs.countP (activeOf productId) + if sub.productId = productId then 1 else 0 := by
    intro productId
    have := countP_modify
      (f := fun c : SubscriptionRecord => { c with status := .active, pausedAt := none })
      (activeOf productId) hfound
    simpa [activeOf, hstatus, updateSub] using this
  constructor
  · intro hnew product hp max hmax
    obtain hid := get_key hp
    have := hnew product (mem_of_get hp) max hmax
    rw [length_listActiveByProduct, hcount, if_pos hid.symm] at this
    rw [length_listActiveByProduct]
    omega
  · intro hroom product hp max hmax
    rw [length_listActiveByProduct, hcount]
    split
    next hid =>
      have := hroom product (hid ▸ get_key_of_mem hs.products.nodup hp) max hmax
      rw [length_listActiveByProduct] at this
      omega
    · have := h product hp max hmax
      rw [length_listActiveByProduct] at this
      omega

theorem withinCapacity_subscribe (hs : s.Indexed) (h : s.WithinCapacity) {input : SubscribeInput}
    {product : SubscriptionProductRecord} (hcheck : s.checkSubscribe input = .ok product)
    {sub : SubscriptionRecord} (hsub : sub.productId = input.productId) :
    (s.addSub sub).WithinCapacity := by
  obtain ⟨hfound, hroom, -⟩ := checkSubscribe_eq_ok hcheck
  intro p hp max hmax
  rw [length_listActiveByProduct, countP_addSub]
  split
  next hactive =>
    have hid : sub.productId = p.id := (of_decide_eq_true hactive).1
    have hread : s.findProduct p.id = _ := get_key_of_mem hs.products.nodup hp
    rw [← hid, hsub, hfound] at hread
    cases hread
    have := hroom max hmax
    rw [length_listActiveByProduct, ← hsub, hid] at this
    omega
  · have := h p hp max hmax
    rw [length_listActiveByProduct] at this
    omega

end

/-- One call keeps the capacity exactly when it is admitted. -/
theorem step_withinCapacity_iff {σ : System} (k : Cmd) (hs : σ.service.Indexed)
    (h : σ.service.WithinCapacity) : (step σ k).service.WithinCapacity ↔ Admits σ k := by
  by_cases hsame : (step σ k).service = σ.service
  · rw [hsame]
    exact ⟨fun _ hne => absurd hsame hne, fun _ => h⟩
  unfold Admits
  rw [imp_iff_right hsame]
  have hchange := step_change σ k
  generalize step σ k = σ' at hchange hsame
  cases hchange with
  | none => exact absurd rfl hsame
  | product hpos hmax =>
    dsimp only
    rw [← hmax]
    exact withinCapacity_addProduct hs h _
  | deactivated productId =>
    refine iff_true_intro ?_
    exact forall_mem_modify (fun _ hp => hp) h
  | subscribed nowMs hcheck => exact iff_true_intro (withinCapacity_subscribe hs h hcheck rfl)
  | paused nowMs hfound | cancelled nowMs hfound =>
    refine iff_true_intro (h.of_le rfl fun _ => countP_updateSub_le hfound ?_)
    simp [activeOf]
  | resumed hfound hstatus =>
    dsimp only
    rw [withinCapacity_resume hs h hfound hstatus, hfound]
    simp
  | ticked hgen =>
    refine iff_true_intro (mintEach_inv (I := WithinCapacity) ?_ hgen h)
    intro s subId f hf hs
    refine hs.of_le rfl fun productId => le_of_eq ?_
    rw [updateSub, countP_modify_of_forall fun c => by
      obtain ⟨-, hproduct, -, hstatus⟩ := hf c
      rw [activeOf, activeOf, hproduct, hstatus]]

/-- A product for one subscriber: the first pauses, a second takes the
place, the first resumes. -/
def overbooked : List Cmd :=
  [.createProduct
      { name := "Coaching", professional := "pro-1", slotDurationMs := 3600000,
        recurrenceRule := "FREQ=DAILY", maxSubscribers := some 1 },
    .subscribe 0 { productId := "sp-1", subscriberId := "ann" },
    .pause 0 "sub-1",
    .subscribe 0 { productId := "sp-1", subscriberId := "bob" },
    .resume "sub-1"]

end ChronoPay.Subscriptions
