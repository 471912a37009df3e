import ChronoPay.DisputeHistory
import Mathlib.Tactic.Ring

/-!
# DisputeLedgers — the money disputes move

Requests one after another. An adjudication adds the award to the buyer's
ledger and takes it from the supplier's; a senior decision that overturns
the ruling takes the award back, if the ruling is truthy. An adjudication
without a ruling moves money like any ruling that is not `BUYER_FAVOR`,
but that is never taken back (`ledgers_of_requests`).
-/

namespace ChronoPay.Disputes

open Coop JsonText List Machine

/-- What was added to `ledgers.buyer` for an object. -/
def Server.net (s : Server) (ref : Nat) : ℚ :=
  s.postings.foldr (fun posting sum => if posting.1 = ref then posting.2 + sum else sum) 0

/-- A request that runs on its own: three segments at most. -/
def serve (deps : Deps) (s : Server) (request : Request × Env) : Server :=
  (Coop.finish (routes deps) request.2 3 (.received request.1) s).1

theorem net_post (s : Server) (ref ref' : Nat) (amount : ℚ) :
    (s.post ref amount).net ref' = s.net ref' + if ref = ref' then amount else 0 := by
  simp only [Server.net, Server.post, foldr_append, foldr_cons, foldr_nil]
  induction s.postings with
  | nil => simp
  | cons posting postings ih =>
    simp only [foldr_cons, ih]
    split
    · rw [add_assoc]
    · rfl

theorem net_eq_zero {s : Server} {ref : Nat} (h : ∀ posting ∈ s.postings, posting.1 ≠ ref) :
    s.net ref = 0 := by
  unfold Server.net
  revert h
  induction s.postings with
  | nil => exact fun _ => rfl
  | cons posting postings ih =>
    intro h
    obtain ⟨hne, hrest⟩ := forall_mem_cons.mp h
    rw [foldr_cons, if_neg hne, ih hrest]

/-! ## What a dispute has moved -/

/-- The adjudicated statuses. -/
def DisputeStatus.ruled : DisputeStatus → Bool
  | .adjudicated | .appealed | .seniorReview | .final | .closed => true
  | .open | .evidenced | .timeout => false

/-- Overturned by the senior panel. -/
def Dispute.overturned (d : Dispute) : Prop := d.status = .final ∧ d.finalRuling = some .overturned

instance (d : Dispute) : Decidable d.overturned := inferInstanceAs (Decidable (_ ∧ _))

/-- What a dispute has moved, from its own fields. -/
def Dispute.moved (d : Dispute) : ℚ :=
  if !d.status.ruled then 0
  else if d.overturned ∧ isTruthy d.ruling then 0 else d.award

structure Balanced (d : Dispute) (net : ℚ) : Prop where
  ruled : .adjudicated ∈ d.history ↔ d.status.ruled = true
  moved : net = d.moved

/-- The objects agree with the postings, and there are no others. -/
structure AllBalanced (s : Server) : Prop where
  objects : ∀ ref d, s.objects[ref]? = some d → Balanced d (s.net ref)
  postings : ∀ posting ∈ s.postings, posting.1 < s.objects.length

section

variable {deps : Deps} {e : Env} {s s' : Server} {pc : Pc} {ref : Nat} {d d' : Dispute}
  {net : ℚ}

theorem AllBalanced.opened : AllBalanced {} where
  objects ref d hget := by cases hget
  postings := forall_mem_nil _

theorem AllBalanced.write (h : AllBalanced s) (hd : Balanced d (s.net ref)) :
    AllBalanced (s.write ref d) where
  objects := Server.All.write h.objects hd
  postings := by
    intro posting hposting
    rw [Server.write, length_set]
    exact h.postings posting hposting

/-- A write that goes with a posting. -/
theorem AllBalanced.writePost (h : AllBalanced s) {amount : ℚ} (hlt : ref < s.objects.length)
    (hd : Balanced d (s.net ref + amount)) : AllBalanced ((s.write ref d).post ref amount) where
  objects := by
    refine all_write (fun ref' hne d' hget => ?_) ?_
    · rw [net_post, if_neg hne, add_zero]
      exact h.objects ref' d' hget
    · rw [net_post, if_pos rfl]
      exact hd
  postings := by
    rw [Server.post, Server.write, length_set]
    exact KeyedList.forall_mem_concat h.postings hlt

theorem AllBalanced.create (h : AllBalanced s) (hfresh : d.Fresh) (disputes : List (String × Nat)) :
    AllBalanced { s with objects := s.objects ++ [d], disputes } where
  objects := by
    have hnet : s.net s.objects.length = 0 :=
      net_eq_zero fun posting hposting => (h.postings posting hposting).ne
    refine Server.All.create h.objects ⟨?_, ?_⟩ disputes
    · rw [Dispute.history, hfresh.chain, hfresh.status]
      decide
    · rw [Dispute.moved, hfresh.status]
      exact hnet
  postings := by
    intro posting hposting
    rw [length_append]
    exact Nat.lt_add_right _ (h.postings posting hposting)

theorem mem_history_advance (d : Dispute) (link : FinalityRecord) :
    .adjudicated ∈ (d.advance link).history ↔
      .adjudicated ∈ d.history ∨ link.status = .adjudicated := by
  rw [history_advance, mem_append, mem_singleton, eq_comm (a := link.status)]

theorem ruled_of_edge {current target : DisputeStatus} (h : canTransition current target = true)
    (htarget : target ≠ .adjudicated) : target.ruled = current.ruled := by
  revert h htarget
  cases current <;> cases target <;> decide

theorem evidenced_of_adjudicable {status : DisputeStatus}
    (h : canTransition status .adjudicated = true) : status = .evidenced := by
  revert h
  cases status <;> decide

theorem moved_of_not_final (h : d.status ≠ .final) :
    d.moved = if d.status.ruled then d.award else 0 := by
  have hnot : ¬ (d.overturned ∧ isTruthy d.ruling = true) := fun hover => h hover.1.1
  rw [Dispute.moved, if_neg hnot]
  cases d.status.ruled with
  | false => rfl
  | true => rfl

/-- A change of status that is neither the adjudication nor the decision
moves nothing. -/
theorem Balanced.advance (h : Balanced d net) (link : FinalityRecord)
    (hedge : canTransition d.status link.status = true) (hadj : link.status ≠ .adjudicated)
    (hfinal : link.status ≠ .final) : Balanced (d.advance link) net where
  ruled := by
    rw [mem_history_advance, h.ruled, or_iff_left hadj]
    show _ ↔ link.status.ruled = true
    rw [ruled_of_edge hedge hadj]
  moved := by
    have hopen : d.status ≠ .final := by
      intro heq
      rw [heq] at hedge
      cases hedge
    rw [h.moved, moved_of_not_final hopen, moved_of_not_final hfinal]
    show _ = if link.status.ruled then d.award else 0
    rw [ruled_of_edge hedge hadj]

/-- The adjudication moves the award. -/
theorem Balanced.adjudicate (h : Balanced d net)
    (hedge : canTransition d.status .adjudicated = true) (body : Option Json) (now : ℤ)
    {link : FinalityRecord} (hlink : link.status = .adjudicated) :
    Balanced ((d.rule body now).advance link) (net + (d.rule body now).award) where
  ruled := by
    rw [mem_history_advance]
    show _ ↔ link.status.ruled = true
    rw [hlink]
    exact iff_of_true (.inr rfl) rfl
  moved := by
    have hevidenced := evidenced_of_adjudicable hedge
    have hzero : d.moved = 0 := by
      rw [Dispute.moved, hevidenced]
      rfl
    have hstatus : ((d.rule body now).advance link).status = .adjudicated := hlink
    rw [moved_of_not_final (by rw [hstatus]; decide), hstatus, h.moved, hzero, zero_add]
    rfl

/-- The decision takes the award back when it overturns a truthy ruling. -/
theorem Balanced.decide (h : Balanced d net) (hreviewed : d.status = .seniorReview)
    (link : FinalityRecord) (hlink : link.status = .final) (votes : List Json)
    (outcome : Verdict) (now : ℤ) :
    Balanced (d.decide link votes outcome now)
      (net + if outcome = .overturn ∧ isTruthy d.ruling then -d.award else 0) where
  ruled := by
    have hhistory : (d.decide link votes outcome now).history = (d.advance link).history := rfl
    rw [hhistory, mem_history_advance, h.ruled, hreviewed]
    show _ ↔ link.status.ruled = true
    rw [hlink]
    exact iff_of_true (.inl rfl) rfl
  moved := by
    have haward : d.moved = d.award := by
      rw [moved_of_not_final (by rw [hreviewed]; decide), hreviewed]
      rfl
    have hstatus : (d.decide link votes outcome now).status = .final := hlink
    have hover : (d.decide link votes outcome now).overturned ↔ outcome = .overturn := by
      cases outcome with
      | uphold => exact iff_of_false (fun hover => nomatch hover.2) nofun
      | overturn => exact iff_of_true ⟨hlink, rfl⟩ rfl
    have hmoved : (d.decide link votes outcome now).moved
        = if outcome = .overturn ∧ isTruthy d.ruling then 0 else d.award := by
      simp only [Dispute.moved, hstatus, hover]
      rfl
    rw [h.moved, haward, hmoved]
    split
    · rw [add_neg_cancel]
    · rw [add_zero]

theorem AllBalanced.scan {options : ScanOptions} {now : ℤ} (h : AllBalanced s) :
    AllBalanced (scanAndAutoResolve deps options now s) := by
  refine scan_inv h fun s ref d h found => h.write ?_
  have hd := h.objects ref d found
  rcases autoResolve_cases deps options now d with
    heq | ⟨target, payload, window, htarget, hedge, heq⟩
  · rwa [heq]
  · rw [heq]
    have hother : target ≠ .adjudicated ∧ target ≠ .final := by
      rcases htarget with rfl | rfl <;> decide
    have hnext : Balanced (d.advance (appendFinalityLink deps d target payload now)) (s.net ref) :=
      hd.advance _ hedge hother.1 hother.2
    exact ⟨hnext.ruled, hnext.moved⟩

/-- Every segment but a late appeal keeps the objects and the postings in
agreement. -/
theorem Changes.balanced (h : Changes deps e s pc s') (hs : AllBalanced s) (hlate : ¬ Late s pc) :
    AllBalanced s' := by
  cases h with
  | stay => exact hs
  | create fresh => exact hs.create fresh _
  | @evidence id body ref d found allowed items payload =>
    have hd : Balanced { d with evidence := items } (s.net ref) :=
      ⟨(hs.objects ref d found).ruled, (hs.objects ref d found).moved⟩
    exact hs.write (hd.advance _ allowed nofun nofun)
  | @spoil id body ref d found allowed =>
    have hd := hs.objects ref d found
    have hevidenced := evidenced_of_adjudicable allowed
    refine hs.write ⟨hd.ruled, ?_⟩
    rw [hd.moved, Dispute.moved, Dispute.moved, hevidenced]
    show _ = if !d.status.ruled then _ else _
    rw [hevidenced]
    rfl
  | @adjudicate id body ref d found allowed payload =>
    exact hs.writePost (List.getElem?_eq_some_iff.mp found).1
      ((hs.objects ref d found).adjudicate allowed body e.now rfl)
  | @appeal ref panel now actor d found =>
    have hadjudicated : d.status = .adjudicated := by
      by_contra hne
      exact hlate ⟨d, found, hne⟩
    have happealed : ∀ link : FinalityRecord, link.status = .appealed →
        Balanced { d.advance link with appealInitiatedAt := some now, panel := some panel }
          (s.net ref) := by
      intro link hlink
      have hd := (hs.objects ref d found).advance link (by rw [hadjudicated, hlink]; rfl)
        (by rw [hlink]; nofun) (by rw [hlink]; nofun)
      exact ⟨hd.ruled, hd.moved⟩
    exact hs.write ((happealed _ rfl).advance _ rfl nofun nofun)
  | @decide id body ref d found reviewed votes outcome payload =>
    have hd := (hs.objects ref d found).decide reviewed
      (appendFinalityLink deps d .final payload e.now) rfl votes outcome e.now
    split
    next hover =>
      rw [if_pos hover] at hd
      exact hs.writePost (List.getElem?_eq_some_iff.mp found).1 hd
    next hover =>
      rw [if_neg hover, add_zero] at hd
      exact hs.write hd
  | @timeout id ref d found allowed payload =>
    exact hs.write ((hs.objects ref d found).advance _ allowed nofun nofun)
  | scan => exact hs.scan

end

/-! ## Requests one after another -/

section

variable {deps : Deps} {e : Env} {s : Server} {pc pc' : Pc} {request : Request × Env}

theorem withDispute_cases (s : Server) (id : String) (route : Nat → Dispute → Segment) :
    withDispute s id route = notFound s ∨
    ∃ ref d, s.objects[ref]? = some d ∧ withDispute s id route = route ref d := by
  unfold withDispute
  split
  · exact .inl rfl
  next ref d hfind => exact .inr ⟨ref, d, find_eq_some hfind, rfl⟩

/-- Every request but an appeal waits at most for its last audit entry. -/
def Answers (task : Coop.Task Pc Outcome) : Prop :=
  ∀ pc', task = .waiting pc' → ∃ reply, pc' = .answering reply

theorem answers_done (outcome : Outcome) : Answers (.done outcome) := nofun

theorem answers_answering (reply : Reply) : Answers (.waiting (.answering reply)) := by
  intro pc' hnext
  exact ⟨reply, (Coop.Task.waiting.inj hnext).symm⟩

theorem answers_withDispute {id : String} {route : Nat → Dispute → Segment}
    (h : ∀ ref d, Answers (route ref d).2) : Answers (withDispute s id route).2 := by
  rcases withDispute_cases s id route with heq | ⟨ref, d, -, heq⟩
  · rw [heq]
    exact answers_done _
  · rw [heq]
    exact h ref d

theorem receive_answers {request : Request} (hrequest : ∀ id actor, request ≠ .appeal id actor) :
    Answers (receive deps e request s).2 := by
  cases request with
  | create body =>
    simp only [receive, create]
    split <;> exact answers_done _
  | evidence id body =>
    refine answers_withDispute fun ref d => ?_
    split
    · exact answers_done _
    · split
      · exact answers_done _
      · split <;> exact answers_done _
  | adjudicate id body =>
    refine answers_withDispute fun ref d => ?_
    split
    · exact answers_done _
    · dsimp only
      split <;> exact answers_done _
  | appeal id actor => exact absurd rfl (hrequest id actor)
  | seniorDecide id body =>
    refine answers_withDispute fun ref d => ?_
    dsimp only
    split
    · exact answers_done _
    · exact answers_answering _
    · exact answers_answering _
  | timeout id =>
    refine answers_withDispute fun ref d => ?_
    split <;> exact answers_done _
  | scan options => exact answers_done _

/-- An appeal waits for the audit log with its dispute still
`adjudicated`. -/
theorem appeal_next {id : String} {actor : Option String}
    (hnext : (appeal deps e id actor s).2 = .waiting pc') :
    (∃ reply, pc' = .answering reply) ∨ ∃ ref panel now actor' d,
      pc' = .initiated ref panel now actor' ∧
        (appeal deps e id actor s).1.objects[ref]? = some d ∧ d.status = .adjudicated := by
  unfold appeal at hnext ⊢
  rcases withDispute_cases s id _ with heq | ⟨ref, d, found, heq⟩
  · rw [heq] at hnext
    cases hnext
  · rw [heq] at hnext ⊢
    dsimp only at hnext ⊢
    split at hnext
    · exact .inl ⟨_, (Coop.Task.waiting.inj hnext).symm⟩
    · split at hnext
      · exact .inl ⟨_, (Coop.Task.waiting.inj hnext).symm⟩
      · split at hnext
        · exact .inl ⟨_, (Coop.Task.waiting.inj hnext).symm⟩
        next hstatus hwindow hpool =>
          rw [if_neg hstatus, if_neg hwindow, if_neg hpool]
          exact .inr ⟨_, _, _, _, d, (Coop.Task.waiting.inj hnext).symm, found, not_not.mp hstatus⟩

/-- The segments a request has before it. -/
def Pc.rank : Pc → Nat
  | .received _ => 2
  | .initiated _ _ _ _ => 1
  | .answering _ => 0

theorem resume_next (hnext : (resume deps e pc s).2 = .waiting pc') :
    (∃ reply, pc' = .answering reply ∧ 0 < pc.rank) ∨ ∃ request ref panel now actor d,
      pc = .received request ∧ pc' = .initiated ref panel now actor ∧
        (resume deps e pc s).1.objects[ref]? = some d ∧ d.status = .adjudicated := by
  cases pc with
  | received request =>
    by_cases hrequest : ∃ id actor, request = .appeal id actor
    · obtain ⟨id, actor, rfl⟩ := hrequest
      refine (appeal_next hnext).imp ?_ ?_
      · rintro ⟨reply, rfl⟩
        exact ⟨reply, rfl, Nat.zero_lt_succ _⟩
      · rintro ⟨ref, panel, now, actor', d, rfl, found, hstatus⟩
        exact ⟨_, ref, panel, now, actor', d, rfl, rfl, found, hstatus⟩
    · obtain ⟨reply, rfl⟩ :=
        receive_answers (fun id actor heq => hrequest ⟨id, actor, heq⟩) pc' hnext
      exact .inl ⟨reply, rfl, Nat.zero_lt_succ _⟩
  | initiated ref panel now actor =>
    simp only [resume, initiate] at hnext
    split at hnext
    · cases hnext
    · exact .inl ⟨_, (Coop.Task.waiting.inj hnext).symm, Nat.zero_lt_succ _⟩
  | answering reply => cases hnext

/-- No request on its own finds its appeal overtaken. -/
theorem resume_timely (hnext : (resume deps e pc s).2 = .waiting pc') :
    ¬ Late (resume deps e pc s).1 pc' := by
  rcases resume_next hnext with ⟨reply, rfl, -⟩ | ⟨_, ref, panel, now, actor, d, -, rfl, found, hd⟩
  · exact fun hlate => hlate
  · rintro ⟨d', found', hne⟩
    cases found.symm.trans found'
    exact hne hd

theorem resume_rank (hnext : (resume deps e pc s).2 = .waiting pc') : pc'.rank < pc.rank := by
  rcases resume_next hnext with ⟨reply, rfl, hpos⟩ | ⟨_, ref, panel, now, actor, d, rfl, rfl, -⟩
  · exact hpos
  · exact Nat.lt_succ_self _

/-- Three segments are enough. -/
theorem serve_done (deps : Deps) (s : Server) (request : Request × Env) :
    ∃ outcome, (Coop.finish (routes deps) request.2 3 (.received request.1) s).2 = .done outcome :=
  finish_done Pc.rank (fun _ _ _ hnext => resume_rank hnext) (Nat.lt_succ_self 2)

/-- Money is moved, not made. -/
theorem Changes.sum {s' : Server} (h : Changes deps e s pc s') :
    s'.buyer + s'.supplier = s.buyer + s.supplier := by
  have hpost : ∀ (s : Server) ref amount,
      (s.post ref amount).buyer + (s.post ref amount).supplier = s.buyer + s.supplier := by
    intro s ref amount
    simp only [Server.post]
    ring
  cases h with
  | adjudicate found allowed payload => exact hpost ..
  | decide found reviewed votes outcome payload =>
    split
    · exact hpost ..
    · rfl
  | scan =>
    exact scan_inv (I := fun s' => s'.buyer + s'.supplier = s.buyer + s.supplier) rfl
      fun _ _ _ hs _ => hs
  | _ => rfl

theorem serve_balanced (h : AllBalanced s) : AllBalanced (serve deps s request) :=
  finish_inv (J := fun s pc => ¬ Late s pc)
    (fun pc s hs hlate => ⟨(resume_changes deps request.2 pc s).balanced hs hlate,
      fun _ hnext => resume_timely hnext⟩) 3 h fun hlate => hlate

theorem serve_sum {total : ℚ} (h : s.buyer + s.supplier = total) :
    (serve deps s request).buyer + (serve deps s request).supplier = total :=
  finish_inv (I := fun s => s.buyer + s.supplier = total) (J := fun _ _ => True)
    (fun pc s hs _ => ⟨((resume_changes deps request.2 pc s).sum).trans hs, fun _ _ => trivial⟩) 3 h
    trivial

/-- The buyer's ledger is its first balance and what was posted. -/
def Posted (s : Server) : Prop :=
  s.buyer = 1000 + s.postings.foldr (fun posting sum => posting.2 + sum) 0

theorem Posted.post (h : Posted s) (ref : Nat) (amount : ℚ) : Posted (s.post ref amount) := by
  have hconcat : ∀ postings : List (Nat × ℚ),
      (postings ++ [(ref, amount)]).foldr (fun posting sum => posting.2 + sum) 0
        = postings.foldr (fun posting sum => posting.2 + sum) 0 + amount := by
    intro postings
    induction postings with
    | nil => simp
    | cons posting postings ih => rw [cons_append, foldr_cons, ih, foldr_cons, add_assoc]
  rw [Posted, Server.post, hconcat, ← add_assoc, ← h]

theorem Changes.posted {s' : Server} (h : Changes deps e s pc s') (hs : Posted s) : Posted s' := by
  cases h with
  | adjudicate found allowed payload => exact Posted.post hs ..
  | decide found reviewed votes outcome payload =>
    split
    · exact Posted.post hs ..
    · exact hs
  | scan => exact scan_inv hs fun _ _ _ hs _ => hs
  | _ => exact hs

theorem serve_posted (h : Posted s) : Posted (serve deps s request) :=
  finish_inv (J := fun _ _ => True)
    (fun pc s hs _ => ⟨(resume_changes deps request.2 pc s).posted hs, fun _ _ => trivial⟩) 3 h trivial

end

theorem award_eq_zero {d : Dispute} : d.award = 0 ↔ d.amount = 0 := by
  unfold Dispute.award
  split
  · rfl
  · exact neg_eq_zero

theorem Balanced.net_ruled {d : Dispute} {net : ℚ} (h : Balanced d net) :
    (.adjudicated ∉ d.history → net = 0) ∧
    (.adjudicated ∈ d.history → ¬ d.overturned → net = d.award) ∧
    (d.overturned → net = if isTruthy d.ruling then 0 else d.award) := by
  rw [h.ruled, h.moved, Dispute.moved]
  refine ⟨fun hruled => ?_, fun hruled hover => ?_, fun hover => ?_⟩
  · rw [Bool.not_eq_true] at hruled
    rw [hruled]
    rfl
  · have hboth : ¬ (d.overturned ∧ isTruthy d.ruling = true) := fun h => hover h.1
    rw [hruled, if_neg hboth]
    rfl
  · rw [hover.1]
    simp only [hover, true_and]
    rfl

/-- **The ledgers after any requests, one after another.** The sum of the
ledgers stays what it was. A dispute has moved nothing before it was
adjudicated, and the award from then on. Once it is overturned it has
moved nothing if its ruling is truthy, and still the award if not: what it
moved is the opposite of the award only if the amount is 0, and it is
taken back only if the ruling is truthy or the amount 0. -/
theorem ledgers_of_requests (deps : Deps) (requests : List (Request × Env)) :
    let s := Machine.run (serve deps) {} requests
    s.buyer + s.supplier = 2000 ∧ Posted s ∧
    ∀ ref d, s.objects[ref]? = some d →
      (.adjudicated ∉ d.history → s.net ref = 0) ∧
      (.adjudicated ∈ d.history → ¬ d.overturned → s.net ref = d.award) ∧
      (d.overturned → s.net ref = if isTruthy d.ruling then 0 else d.award) ∧
      (d.overturned → (s.net ref = -d.award ↔ d.amount = 0)) ∧
      (d.overturned → (s.net ref = 0 ↔ isTruthy d.ruling = true ∨ d.amount = 0)) := by
  intro s
  have hsum : s.buyer + s.supplier = 2000 :=
    run_inv (I := fun s : Server => s.buyer + s.supplier = 2000)
      (fun s request hs => serve_sum hs) (by norm_num) requests
  have hposted : Posted s := run_inv (fun s request hs => serve_posted hs) (by simp [Posted]) requests
  have hbalanced : AllBalanced s :=
    run_inv (fun s request hs => serve_balanced hs) AllBalanced.opened requests
  refine ⟨hsum, hposted, fun ref d hget => ?_⟩
  obtain ⟨hbefore, hafter, hover⟩ := (hbalanced.objects ref d hget).net_ruled
  refine ⟨hbefore, hafter, hover, fun h => ?_, fun h => ?_⟩
  · rw [hover h, ← award_eq_zero]
    split
    · rw [eq_comm, neg_eq_zero]
    · exact self_eq_neg
  · rw [hover h, ← award_eq_zero]
    split
    next htruthy => simp [htruthy]
    next hfalsy => simp [hfalsy]

/-- Awarded without a ruling, then overturned. -/
def overturnedRun (ruling : List (String × Json)) : List (Request × Env) :=
  let e : Env := ⟨0, "d", arbiters⟩
  [(.create (some (literalObject [("amount", .number ['5'])])), e),
    (.evidence "d" (some (.object [])), e),
    (.adjudicate "d" (some (literalObject ruling)), e),
    (.appeal "d" none, e), (.seniorDecide "d" (votes "OVERTURN"), e)]

/-- A ruling that was left out is not taken back when it is overturned,
and one for the buyer is taken back but not turned round. -/
theorem overturnedRun_ledgers : (Machine.run (serve sampleDeps) {} (overturnedRun [])).net 0 = -5 ∧
    (Machine.run (serve sampleDeps) {} (overturnedRun [])).objects.map
        (fun d => (d.status, d.finalRuling, d.amount)) = [(.final, some .overturned, 5)] ∧
    (Machine.run (serve sampleDeps) {}
      (overturnedRun [("ruling", .string (units "BUYER_FAVOR"))])).net 0 = 0 := by
  decide +kernel

end ChronoPay.Disputes
