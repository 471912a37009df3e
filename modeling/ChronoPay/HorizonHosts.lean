import Mathlib.Data.List.Infix
import ChronoPay.Lib.Machine

/-!
# HorizonHosts — when a Horizon host is quarantined, and for how long

A host is quarantined at its third error within ten seconds. `fetchJson`
records a success as soon as `fetch` returns, before it looks at the
status, so any answer lifts the quarantine, an error page too
(`serverError_lifts`).
-/

namespace ChronoPay.HorizonHosts

open List Machine

/-- What is read of an error: `text` is its message in lower case. -/
structure HostError where
  statusCode : Option Nat := none
  code : Option String := none
  text : String

def isHttpClientError (error : HostError) : Prop :=
  ∃ status ∈ error.statusCode, 400 ≤ status ∧ status < 500 ∧ status ≠ 429

def retriedTexts : List String :=
  ["rate limit", "timeout", "timed out", "network", "gateway timeout", "service unavailable",
    "connection reset", "econnreset", "etimedout", "tx_bad_seq", "bad sequence", "502", "503", "504",
    "500"]

def shouldRetryContractError (error : HostError) : Prop :=
  error.code = some "TIMEOUT" ∨ error.code = some "NETWORK_ERROR" ∨
    (∃ status ∈ error.statusCode, 500 ≤ status) ∨
    ∃ part ∈ retriedTexts, part.toList <:+: error.text.toList

instance (error : HostError) : Decidable (isHttpClientError error) :=
  inferInstanceAs (Decidable (∃ status ∈ error.statusCode, _))

instance (error : HostError) : Decidable (shouldRetryContractError error) :=
  inferInstanceAs (Decidable (_ ∨ _))

/-- `HorizonHttpError`, with the head of the body in lower case. -/
def horizonHttpError (status : Nat) (detail : String) : HostError where
  statusCode := some status
  text := (if 500 ≤ status then "service unavailable" else if status = 429 then
    "rate limit exceeded" else "invalid argument") ++ ": horizon http " ++ toString status ++ ": "
      ++ detail

structure HostStatus where
  isQuarantined : Bool := false
  quarantinedAt : Int := 0
  errorTimestamps : List Int := []
  lastSuccessAt : Int := 0

namespace HostStatus

def recordSuccess (host : HostStatus) (now : Int) : HostStatus :=
  if host.isQuarantined then
    { host with lastSuccessAt := now, isQuarantined := false, errorTimestamps := [] }
  else { host with lastSuccessAt := now }

def recordError (host : HostStatus) (now : Int) (error : HostError) : HostStatus :=
  if isHttpClientError error ∨ ¬ shouldRetryContractError error ∨ host.isQuarantined then host
  else
    let errorTimestamps := (host.errorTimestamps ++ [now]).filter fun t => now - t ≤ 10000
    if 3 ≤ errorTimestamps.length then
      { host with errorTimestamps, isQuarantined := true, quarantinedAt := now }
    else { host with errorTimestamps }

end HostStatus

/-- A host, and for each probe under way the `now` of its
`getHealthyHost`. -/
structure State where
  host : HostStatus := {}
  probes : List Int := []

/-- What can happen at any time; the requests under way are the outside's. -/
inductive Event where
  | networkError (now : Int) (error : HostError)
  /-- `fetch` returns. -/
  | answered (now : Int) (status : Nat)
  /-- The body of an answer that is no 2xx has arrived. -/
  | bodyRead (now : Int) (status : Nat) (detail : String)
  /-- A `getHealthyHost` that began at `now` comes to the host. -/
  | check (now : Int)
  | probed (probe : Nat) (recovered : Bool)

def step (s : State) : Event → State
  | .networkError now error => { s with host := s.host.recordError now error }
  | .answered now _ => { s with host := s.host.recordSuccess now }
  | .bodyRead now status detail =>
    { s with host := s.host.recordError now (horizonHttpError status detail) }
  | .check now =>
    if s.host.isQuarantined ∧ now - s.host.quarantinedAt ≥ 15000 then
      { s with probes := s.probes ++ [now] }
    else s
  | .probed probe recovered =>
    match s.probes[probe]? with
    | none => s
    | some now =>
      { host := if recovered then
            { s.host with isQuarantined := false, errorTimestamps := [], lastSuccessAt := now }
          else { s.host with quarantinedAt := now }
        probes := s.probes.eraseIdx probe }

def Ok (status : Nat) : Prop := 200 ≤ status ∧ status ≤ 299

/-- What may lift a quarantine that began at `since`. -/
def Lifts (since : Int) (s : State) : Event → Prop
  | .answered _ status => Ok status
  | .probed probe recovered =>
    recovered = true ∧ ∃ now, s.probes[probe]? = some now ∧ since + 15000 ≤ now
  | _ => False

/-- The host is in a quarantine that began at `since`. -/
structure Quarantined (since : Int) (s : State) : Prop where
  quarantined : s.host.isQuarantined = true
  since_le : since ≤ s.host.quarantinedAt
  probes : ∀ now ∈ s.probes, since + 15000 ≤ now

theorem Quarantined.step {since : Int} {s : State} {k : Event} (h : Quarantined since s)
    (hk : ¬ Lifts since s k) (hanswer : ∀ now status, k = .answered now status → Ok status) :
    Quarantined since (step s k) := by
  have herror : ∀ now error, s.host.recordError now error = s.host := fun now error =>
    if_pos (.inr (.inr h.quarantined))
  cases k with
  | networkError | bodyRead =>
    rw [HorizonHosts.step, herror]
    exact h
  | answered now status => exact absurd (hanswer now status rfl) hk
  | check now =>
    rw [HorizonHosts.step]
    split
    next hdue =>
      have hsince := h.since_le
      refine ⟨h.quarantined, hsince, fun t ht => ?_⟩
      rcases mem_append.mp ht with ht | ht
      · exact h.probes t ht
      · rw [mem_singleton.mp ht]
        omega
    · exact h
  | probed probe recovered =>
    rw [HorizonHosts.step]
    split
    · exact h
    next now hnow =>
      have hstarted := h.probes now (mem_of_getElem? hnow)
      cases recovered with
      | true => exact absurd ⟨rfl, now, hnow, hstarted⟩ hk
      | false =>
        refine ⟨h.quarantined, by simp; omega, fun t ht => ?_⟩
        exact h.probes t (mem_of_mem_eraseIdx ht)

/-- **A quarantine lasts** until a 2xx arrives or a probe that began 15 s
after it succeeds, if no other answer arrives and no probe was under way
when it began. -/
theorem quarantine_lasts {s : State} (hbegun : s.host.isQuarantined = true) (hprobes : s.probes = [])
    {ks : List Event} (hanswers : ∀ k ∈ ks, ∀ now status, k = .answered now status → Ok status)
    (hks : Along step (fun s' k => ¬ Lifts s.host.quarantinedAt s' k) s ks) :
    Always step (fun s' => s'.host.isQuarantined = true) s ks := by
  have hs : Quarantined s.host.quarantinedAt s :=
    ⟨hbegun, Int.le_refl _, fun now hnow => absurd (hprobes ▸ hnow) not_mem_nil⟩
  exact (always_of_along (fun s' k hs' hk => hs'.step hk.1 hk.2) hs
    (hks.and_forall_mem hanswers)).mono fun s' hs' => hs'.quarantined

def resets : List Event :=
  [.networkError 0 ⟨none, none, "read econnreset"⟩, .networkError 1 ⟨none, none, "read econnreset"⟩,
    .networkError 2 ⟨none, none, "read econnreset"⟩]

/-- Through another error and a probe that fails. -/
theorem quarantine_lasts_resets :
    Always step (fun s => s.host.isQuarantined = true) (Machine.run step {} resets)
      [.networkError 3 ⟨none, none, "timeout"⟩, .check 16000, .probed 0 false] :=
  quarantine_lasts (by decide) (by decide) (by simp) ⟨nofun, nofun, by rintro ⟨⟨⟩, -⟩, trivial⟩

/-- **A 500 lifts the quarantine**: it is recorded as a success first. -/
theorem serverError_lifts :
    (Machine.run step {} resets).host.isQuarantined = true ∧
      (Machine.run step {} (resets ++ [.answered 3 500, .bodyRead 3 500 ""])).host.isQuarantined
        = false := by
  decide

end ChronoPay.HorizonHosts
