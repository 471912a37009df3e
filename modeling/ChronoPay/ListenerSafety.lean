import ChronoPay.EscrowListener

/-!
# ListenerSafety — is an event at or below the cursor ever missed?

The loop over a page never loses a claim and claims every final event it
gets through (`applyEvents_spec`), so all that can go wrong is the page
itself: when it ends INSIDE a ledger, the cursor moves past the rest of
that ledger. `Covered` is the condition under which a command cannot
open such a gap; a run of covered commands never has one.
-/

namespace ChronoPay

open Function List Machine

namespace EscrowListener

variable {options : EscrowListenerOptions} {env : TickEnv} {s : ListenerState}
  {allowList : List String} {safeTipSeq i : Nat} {fault : Nat → Option EventFault}
  {event : EscrowEvent} {events : List EscrowEvent} {p : Progress} {key : String}

/-! ## One event, one page -/

theorem record_claims {outcome : ProjectionOutcome} :
    (p.record event outcome).claims = p.claims := by
  unfold Progress.record
  split <;> rfl

/-- **One event**: claims are only added, a final event that does not throw
is claimed, and the highest ledger moves by final events only. -/
theorem applyEvent_spec {f : Option EventFault} {p' : Progress} {failure : Option ListenerError}
    (h : applyEvent allowList safeTipSeq f event p = (p', failure)) :
    (∀ key, p.claims key = true → p'.claims key = true) ∧
    (failure = none → event.ledgerSeq ≤ safeTipSeq → p'.claims (eventKey event) = true) ∧
    (p'.maxProcessedSeq = p.maxProcessedSeq ∨
      event.ledgerSeq ≤ safeTipSeq ∧ p'.maxProcessedSeq = event.ledgerSeq) := by
  unfold applyEvent at h
  split at h
  next hpast =>
    cases h
    exact ⟨fun _ => id, fun _ hfinal => by omega, .inl rfl⟩
  next hfinal =>
    have hmax : max p.maxProcessedSeq event.ledgerSeq = p.maxProcessedSeq ∨
        event.ledgerSeq ≤ safeTipSeq ∧ max p.maxProcessedSeq event.ledgerSeq = event.ledgerSeq := by
      omega
    dsimp only at h
    split at h
    · cases h
      exact ⟨fun _ => id, by simp, hmax⟩
    · split at h
      next hclaimed =>
        cases h
        exact ⟨fun _ => id, fun _ _ => hclaimed, hmax⟩
      next hunclaimed =>
        split at h
        · -- the claim that is given back was not there before
          cases h
          refine ⟨fun key hkey => ?_, by simp, hmax⟩
          have hne : key ≠ eventKey event := by
            rintro rfl
            exact hunclaimed hkey
          simp [update_of_ne hne, hkey]
        · cases h
          refine ⟨fun key hkey => ?_, fun _ _ => ?_, ?_⟩
          · rw [record_claims]
            by_cases hkey' : key = eventKey event
            · simp [hkey']
            · simp [update_of_ne hkey', hkey]
          · rw [record_claims]
            simp
          · unfold Progress.record
            split <;> exact hmax

/-- **One page**: the same for the loop. -/
theorem applyEvents_spec {p' : Progress} {failure : Option ListenerError}
    (h : applyEvents allowList safeTipSeq fault i events p = (p', failure)) :
    (∀ key, p.claims key = true → p'.claims key = true) ∧
    (failure = none → ∀ event ∈ events, event.ledgerSeq ≤ safeTipSeq →
      p'.claims (eventKey event) = true) ∧
    (p'.maxProcessedSeq = p.maxProcessedSeq ∨
      ∃ event ∈ events, event.ledgerSeq ≤ safeTipSeq ∧ p'.maxProcessedSeq = event.ledgerSeq) := by
  induction events generalizing i p with
  | nil =>
    cases h
    exact ⟨fun _ => id, by simp, .inl rfl⟩
  | cons event rest ih =>
    rw [applyEvents] at h
    rcases hone : applyEvent allowList safeTipSeq (fault i) event p with ⟨p₁, _ | err⟩
    · rw [hone] at h
      obtain ⟨hkeep, hclaim, hmax⟩ := applyEvent_spec hone
      obtain ⟨hkeep', hclaim', hmax'⟩ := ih h
      refine ⟨fun key hkey => hkeep' key (hkeep key hkey), fun hnone e hmem hfinal => ?_, ?_⟩
      · rcases mem_cons.mp hmem with rfl | hmem
        · exact hkeep' _ (hclaim rfl hfinal)
        · exact hclaim' hnone e hmem hfinal
      · rcases hmax' with hmax' | ⟨e, hmem, hfinal, hmax'⟩
        · rw [hmax']
          refine hmax.imp_right fun ⟨hfinal, hmax⟩ => ⟨event, mem_cons_self, hfinal, hmax⟩
        · exact .inr ⟨e, mem_cons_of_mem _ hmem, hfinal, hmax'⟩
    · rw [hone] at h
      cases h
      obtain ⟨hkeep, -, hmax⟩ := applyEvent_spec hone
      refine ⟨hkeep, by simp, hmax.imp_right ?_⟩
      exact fun ⟨hfinal, hmax⟩ => ⟨event, mem_cons_self, hfinal, hmax⟩

/-! ## One tick -/

theorem readTip_eq_ok {tip : Nat} (h : readTip options env = .ok tip) :
    env.latestLedgerSeq = some (tip : Int) := by
  unfold readTip at h
  split at h
  · cases h
  · split at h
    · cases h
    · split at h
      · cases h
      next reported hreported =>
        split at h
        · cases h
        next hnonneg =>
          cases h
          rw [hreported, Int.toNat_of_nonneg (by omega)]

/-- The page the next tick of the listener fetches. -/
def pageOf (options : EscrowListenerOptions) (s : ListenerState) : List EscrowEvent :=
  s.chain.getEvents (nextPage options (s.cursors options.instanceId))

/-- The events after that page. -/
def afterPage (options : EscrowListenerOptions) (s : ListenerState) : List EscrowEvent :=
  let args := nextPage options (s.cursors options.instanceId)
  (s.chain.from args.startLedger).drop args.limit

/-- The cursor was moved to the ledger of a final event of the page, all
of whose final events are claimed. -/
def Advanced (options : EscrowListenerOptions) (env : TickEnv) (s s' : ListenerState) : Prop :=
  ∃ (tip : Nat) (last : EscrowEvent), env.latestLedgerSeq = some (tip : Int) ∧
    last ∈ pageOf options s ∧ last.ledgerSeq ≤ safeTip options.finalityDepth tip ∧
    s'.cursors = update s.cursors options.instanceId (some last.ledgerSeq) ∧
    ∀ event ∈ pageOf options s, event.ledgerSeq ≤ safeTip options.finalityDepth tip →
      s'.claims (eventKey event) = true

theorem finishTick_cases {tipLedgerSeq fetchedEvents : Nat} :
    (finishTick options env tipLedgerSeq safeTipSeq fetchedEvents p s).1 = s ∨
    (s.cursors options.instanceId).getD 0 < p.maxProcessedSeq ∧
      (finishTick options env tipLedgerSeq safeTipSeq fetchedEvents p s).1
        = { s with
            cursors := update s.cursors options.instanceId (some p.maxProcessedSeq) } := by
  unfold finishTick
  dsimp only
  split
  next hmoved =>
    split
    · exact .inl rfl
    · unfold setCursor
      split
      · exact .inl rfl
      next cursors hset =>
        split at hset
        · cases hset
        · cases hset
          exact .inr ⟨hmoved, rfl⟩
  · exact .inl rfl

/-- **One tick**: the chain stays, claims are only added, and the cursor
stays or advances over the page. -/
theorem runEscrowListenerTick_spec (options : EscrowListenerOptions) (env : TickEnv)
    (s : ListenerState) :
    (runEscrowListenerTick options env s).1.chain = s.chain ∧
    (∀ key, s.claims key = true → (runEscrowListenerTick options env s).1.claims key = true) ∧
    ((runEscrowListenerTick options env s).1.cursors = s.cursors ∨
      Advanced options env s (runEscrowListenerTick options env s).1) := by
  unfold runEscrowListenerTick
  cases htip : readTip options env with
  | error err => exact ⟨rfl, fun _ => id, .inl rfl⟩
  | ok tip =>
    dsimp only
    split
    · exact ⟨rfl, fun _ => id, .inl rfl⟩
    · split
      · exact ⟨rfl, fun _ => id, .inl rfl⟩
      · split
        next p err hpage => exact ⟨rfl, (applyEvents_spec hpage).1, .inl rfl⟩
        next p hpage =>
          obtain ⟨hkeep, hclaim, hmax⟩ := applyEvents_spec hpage
          rcases @finishTick_cases options env { s with claims := p.claims, store := p.store }
            (safeTip options.finalityDepth tip) p tip _ with hsame | ⟨hmoved, hwrite⟩
          · rw [hsame]
            exact ⟨rfl, hkeep, .inl rfl⟩
          · rw [hwrite]
            refine ⟨rfl, hkeep, .inr ?_⟩
            -- a cursor that moved was moved by an event of the page
            rcases hmax with hmax | ⟨last, hlast, hfinal, hmax⟩
            · exact absurd hmax (Nat.ne_of_gt hmoved)
            · exact ⟨tip, last, readTip_eq_ok htip, hlast, hfinal, by rw [hmax], hclaim rfl⟩

/-! ## Runs -/

/-- **Nothing is taken back**: whatever fails, claims stay and cursors
only move forward. -/
theorem listener_forward (s : ListenerState) (ks : List ListenerCmd) :
    Always step (fun s' => (∀ key, s.claims key = true → s'.claims key = true) ∧
      ∀ id cursor, s.cursors id = some cursor → ∃ later ≥ cursor, s'.cursors id = some later)
      s ks := by
  refine always_of_inv (fun s' k h => ?_) ⟨fun _ h => h, fun _ cursor h => ⟨cursor, le_rfl, h⟩⟩ ks
  cases k with
  | grow events => exact h
  | tick options env =>
    obtain ⟨-, hclaims, hcursors⟩ := runEscrowListenerTick_spec options env s'
    refine ⟨fun key hkey => hclaims key (h.1 key hkey), fun id cursor hcursor => ?_⟩
    obtain ⟨mid, hmid, heq⟩ := h.2 id cursor hcursor
    rcases hcursors with hsame | ⟨tip, last, -, hlast, -, hmoved, -⟩
    · exact ⟨mid, hmid, (congrFun hsame id).trans heq⟩
    · rw [step, hmoved]
      by_cases hid : id = options.instanceId
      · subst hid
        have hfrom := (mem_filter.mp (mem_of_mem_take hlast)).2
        have hlt : mid + 1 ≤ last.ledgerSeq := by simpa [nextPage, heq] using hfrom
        exact ⟨_, by omega, update_self ..⟩
      · exact ⟨mid, hmid, (update_of_ne hid ..).trans heq⟩

/-- Every event at or below a stored cursor is claimed. -/
def NoneSkipped (s : ListenerState) : Prop :=
  ∀ instanceId cursor, s.cursors instanceId = some cursor →
    ∀ event ∈ s.chain.events, event.ledgerSeq ≤ cursor → s.claims (eventKey event) = true

/-- The command opens no gap. The chain grows above the cursors. A tick
without a cursor, which starts at ledger 1, leaves nothing in ledger 0;
and no unclaimed event after the page shares a final ledger with one on
the page. -/
def Covered (s : ListenerState) : ListenerCmd → Prop
  | .grow events => ∀ event ∈ events, ∀ instanceId cursor, s.cursors instanceId = some cursor →
      event.ledgerSeq ≤ cursor → s.claims (eventKey event) = true
  | .tick options env =>
    (s.cursors options.instanceId = none → ∀ event ∈ s.chain.events, event.ledgerSeq = 0 →
      s.claims (eventKey event) = true) ∧
    ∀ tip ∈ env.latestLedgerSeq, ∀ last ∈ pageOf options s,
      last.ledgerSeq ≤ safeTip options.finalityDepth tip →
      ∀ event ∈ afterPage options s, event.ledgerSeq = last.ledgerSeq →
        s.claims (eventKey event) = true

/-- An event is at or below the cursor, in ledger 0 before any cursor, on
the next page or after it. -/
theorem event_place (hmem : event ∈ s.chain.events) :
    (∃ cursor ∈ s.cursors options.instanceId, event.ledgerSeq ≤ cursor) ∨
    (s.cursors options.instanceId = none ∧ event.ledgerSeq = 0) ∨
    event ∈ pageOf options s ∨ event ∈ afterPage options s := by
  have hfrom : (s.cursors options.instanceId).getD 0 + 1 ≤ event.ledgerSeq →
      event ∈ pageOf options s ∨ event ∈ afterPage options s := by
    intro hstart
    rw [← mem_append, pageOf, afterPage, Chain.getEvents, take_append_drop]
    exact mem_filter.mpr ⟨hmem, decide_eq_true hstart⟩
  cases hcursor : s.cursors options.instanceId with
  | none =>
    rw [hcursor] at hfrom
    by_cases hzero : event.ledgerSeq = 0
    · exact .inr (.inl ⟨rfl, hzero⟩)
    · exact .inr (.inr (hfrom (Nat.pos_of_ne_zero hzero)))
  | some cursor =>
    rw [hcursor] at hfrom
    by_cases hle : event.ledgerSeq ≤ cursor
    · exact .inl ⟨cursor, rfl, hle⟩
    · exact .inr (.inr (hfrom (Nat.lt_of_not_le hle)))

/-- Events after the page are not in a lower ledger than those on it. -/
theorem page_le_afterPage {last : EscrowEvent} (hlast : last ∈ pageOf options s)
    (hevent : event ∈ afterPage options s) : last.ledgerSeq ≤ event.ledgerSeq := by
  have hsorted :
      (s.chain.from (nextPage options (s.cursors options.instanceId)).startLedger).Pairwise Before :=
    s.chain.sorted.filter _
  rw [← take_append_drop (nextPage options (s.cursors options.instanceId)).limit
    (s.chain.from _)] at hsorted
  have := (pairwise_append.mp hsorted).2.2 last hlast event hevent
  unfold Before at this
  omega

/-- A tick keeps the invariant: the events up to the new cursor were at or
below the old one, or are on the page, or share its last final ledger. -/
theorem NoneSkipped.tick (h : NoneSkipped s) (hcovered : Covered s (.tick options env)) :
    NoneSkipped (runEscrowListenerTick options env s).1 := by
  obtain ⟨hchain, hkeep, hcursors⟩ := runEscrowListenerTick_spec options env s
  generalize (runEscrowListenerTick options env s).1 = s' at hchain hkeep hcursors ⊢
  intro instanceId cursor hcursor event hmem hle
  rw [hchain] at hmem
  obtain ⟨hzero, hsplit⟩ := hcovered
  rcases hcursors with hsame | ⟨tip, last, htip, hlast, hfinal, hmoved, hclaimed⟩
  · rw [hsame] at hcursor
    exact hkeep _ (h _ _ hcursor event hmem hle)
  · by_cases hid : instanceId = options.instanceId
    · subst hid
      rw [hmoved, update_self] at hcursor
      cases hcursor
      rcases @event_place options s event hmem with
        ⟨before, hbefore, hle'⟩ | ⟨hnone, hz⟩ | hpage | hafter
      · exact hkeep _ (h _ _ hbefore event hmem hle')
      · exact hkeep _ (hzero hnone event hmem hz)
      · exact hclaimed event hpage (Nat.le_trans hle hfinal)
      · -- after the page, so in the very ledger the cursor was moved to
        have heq := Nat.le_antisymm hle (page_le_afterPage hlast hafter)
        exact hkeep _ (hsplit tip htip last hlast hfinal event hafter heq)
    · rw [hmoved, update_of_ne hid] at hcursor
      exact hkeep _ (h _ _ hcursor event hmem hle)

theorem NoneSkipped.step (s : ListenerState) (k : ListenerCmd) (h : NoneSkipped s)
    (hcovered : Covered s k) : NoneSkipped (step s k) := by
  cases k with
  | tick options env => exact h.tick hcovered
  | grow events =>
    intro instanceId cursor hcursor event hmem hle
    have hmem' : event ∈ s.chain.events ∨ event ∈ events := by
      simp only [EscrowListener.step, Chain.grow] at hmem
      split at hmem
      · exact mem_append.mp hmem
      · exact .inl hmem
    rcases hmem' with hmem' | hmem'
    · exact h _ _ hcursor event hmem' hle
    · exact hcovered event hmem' _ _ hcursor hle

/-- **No event is skipped in a covered run.** From any chain and booking
state with empty stores, whatever fails on the way. -/
theorem noneSkipped_of_covered (chain : Chain) (store : Store) (ks : List ListenerCmd)
    (hks : Along step Covered { chain, store } ks) :
    Always step NoneSkipped { chain, store } ks := by
  have hempty : NoneSkipped { chain, store } := by
    intro instanceId cursor hcursor
    cases hcursor
  exact always_of_along NoneSkipped.step hempty hks

/-- An event of a transaction in ledger 1. -/
def heldEvent (eventIndex : Nat) : EscrowEvent :=
  { kind := .held, txHash := "ab", eventIndex, ledgerSeq := 1, closeTime := 0,
    contractAddress := "C", slotId := "slot-1" }

def twoInLedger : Chain where
  events := [heldEvent 0, heldEvent 1]
  sorted := by decide

/-- A tick at tip 1 that takes everything for final. -/
def tickAtOne (pageLimit : Int) : ListenerCmd :=
  .tick { instanceId := "listener", pageLimit, finalityDepth := 0 } { latestLedgerSeq := some 1 }

def beforeTicks : ListenerState := { chain := twoInLedger, store := { slots := [] } }

/-- A page that holds the whole ledger. -/
theorem noneSkipped_whole_page : Always step NoneSkipped beforeTicks [tickAtOne 100] := by
  refine noneSkipped_of_covered _ _ _ ⟨⟨?_, ?_⟩, trivial⟩
  · intro _ event hmem
    have hledger : ∀ event ∈ twoInLedger.events, event.ledgerSeq ≠ 0 := by decide
    exact fun hzero => absurd hzero (hledger event hmem)
  · rintro tip - last - - event hafter
    cases (hafter : event ∈ [])

/-- **A page that ends inside a ledger skips the rest of it.** With one
event to a page, the cursor is at ledger 1 and the second event of that
ledger is neither claimed nor ever fetched again. -/
theorem pageBoundary_skips_event : ¬ Always step NoneSkipped beforeTicks [tickAtOne 1] := by
  rintro ⟨-, hskipped⟩
  have hsecond : (step beforeTicks (tickAtOne 1)).claims (eventKey (heldEvent 1)) = true :=
    hskipped "listener" 1 (by decide +kernel) (heldEvent 1) (by decide +kernel) (by decide)
  exact absurd hsecond (by decide +kernel)

end EscrowListener

end ChronoPay
