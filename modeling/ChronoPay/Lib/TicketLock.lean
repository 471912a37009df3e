import ChronoPay.Lib.Coop
import ChronoPay.Lib.TicketQueue

/-!
# TicketLock — mutual exclusion per key, by chains of promises

A table leads from keys to promises. Who wants to lock a key makes a
ticket, puts `previous.then(() => ticket)` in the place of the promise it
finds, waits for that promise, does its work with any number of
suspensions and resolves the ticket at the end.

A ticket is a position in the list of all tickets. Of two tickets of one
key the later one waits for the earlier one (`Lined`), so no two of them
have their turn at the same time (`Lined.eq_of_ready`).

A program uses the lock properly if each of its segments makes one of
four moves (`Follows`). Then no two calls are between their turn and
their release for one key, in any run (`Locked.exclusive`).
-/

namespace TicketLock

open Coop List Option

open TicketQueue (Promise)

/-- The promise waits for the ticket. -/
def Awaits : Promise → Nat → Prop
  | .resolved, _ => False
  | .thenTicket before ticket, t => Awaits before t ∨ t = ticket

theorem fulfilled_iff {released : Nat → Bool} {p : Promise} :
    p.fulfilled released = true ↔ ∀ t, Awaits p t → released t = true := by
  induction p with
  | resolved => exact iff_of_true rfl nofun
  | thenTicket before ticket ih =>
    rw [Promise.fulfilled, Bool.and_eq_true, ih]
    simp only [Awaits, or_imp, forall_and, forall_eq]

structure Ticket (κ : Type*) where
  key : κ
  previous : Promise
  resolved : Bool := false

structure Locks (κ : Type*) where
  tickets : List (Ticket κ) := []
  /-- The promise at the end of each chain. -/
  ends : List (κ × Promise) := []

variable {κ : Type*} [DecidableEq κ] {l : Locks κ} {key : κ} {t t' : Nat} {ticket ticket' : Ticket κ}

def Locks.resolved (l : Locks κ) (t : Nat) : Bool := (l.tickets[t]?).any Ticket.resolved

/-- `locks.get(key) ?? Promise.resolve()` -/
def Locks.last (l : Locks κ) (key : κ) : Promise :=
  ((KeyedList.get Prod.fst key l.ends).map Prod.snd).getD .resolved

/-- Make a ticket; its number is that of the tickets there were. -/
def Locks.take (l : Locks κ) (key : κ) : Locks κ where
  tickets := l.tickets ++ [⟨key, l.last key, false⟩]
  ends := KeyedList.put Prod.fst (key, .thenTicket (l.last key) l.tickets.length) l.ends

/-- What the ticket waits for is fulfilled. -/
def Locks.ready (l : Locks κ) (t : Nat) : Bool :=
  (l.tickets[t]?).any fun ticket => ticket.previous.fulfilled l.resolved

def Locks.release (l : Locks κ) (t : Nat) : Locks κ :=
  { l with tickets := l.tickets.modify t fun ticket => { ticket with resolved := true } }

theorem last_take (key' : κ) : (l.take key).last key'
    = if key = key' then .thenTicket (l.last key) l.tickets.length else l.last key' := by
  rw [Locks.last, Locks.take, KeyedList.get_put]
  split
  · rfl
  · rfl

omit [DecidableEq κ] in
theorem getElem?_release : (l.release t).tickets[t']?
    = (l.tickets[t']?).map fun ticket => if t = t' then { ticket with resolved := true } else ticket := by
  rw [Locks.release, getElem?_modify]
  split
  · rfl
  · exact Option.map_id'.trans Option.map_id'.symm

theorem getElem?_take_of_some (h : l.tickets[t]? = some ticket) :
    (l.take key).tickets[t]? = some ticket := by
  rw [Locks.take, getElem?_append_left (List.getElem?_eq_some_iff.mp h).1, h]

theorem resolved_take (h : l.resolved t = true) : (l.take key).resolved t = true := by
  rw [Locks.resolved] at h ⊢
  obtain ⟨ticket, hget, hresolved⟩ := (Option.any_eq_true _ _).mp h
  rw [getElem?_take_of_some hget]
  exact hresolved

omit [DecidableEq κ] in
theorem resolved_release (h : l.resolved t' = true) : (l.release t).resolved t' = true := by
  rw [Locks.resolved] at h ⊢
  obtain ⟨ticket, hget, hresolved⟩ := (Option.any_eq_true _ _).mp h
  rw [getElem?_release, hget, map_some, any_some]
  split
  · rfl
  · exact hresolved

/-- The ticket is one of the key and not resolved. -/
def Locks.Open (l : Locks κ) (key : κ) (t : Nat) : Prop :=
  ∃ ticket, l.tickets[t]? = some ticket ∧ ticket.key = key ∧ ticket.resolved = false

omit [DecidableEq κ] in
theorem Locks.Open.lt (h : l.Open key t) : t < l.tickets.length := by
  obtain ⟨ticket, hget, -⟩ := h
  exact (List.getElem?_eq_some_iff.mp hget).1

omit [DecidableEq κ] in
theorem Locks.Open.unresolved (h : l.Open key t) : l.resolved t = false := by
  obtain ⟨ticket, hget, -, hresolved⟩ := h
  rw [Locks.resolved, hget]
  exact hresolved

theorem Locks.Open.take (h : l.Open key t) (key' : κ) : (l.take key').Open key t := by
  obtain ⟨ticket, hget, hticket⟩ := h
  exact ⟨ticket, getElem?_take_of_some hget, hticket⟩

omit [DecidableEq κ] in
theorem Locks.Open.release (h : l.Open key t) (hne : t' ≠ t) : (l.release t').Open key t := by
  obtain ⟨ticket, hget, hticket⟩ := h
  refine ⟨ticket, ?_, hticket⟩
  rw [getElem?_release, hget, map_some, if_neg hne]

theorem ready_take (h : l.ready t = true) : (l.take key).ready t = true := by
  rw [Locks.ready] at h ⊢
  obtain ⟨ticket, hget, hready⟩ := (Option.any_eq_true _ _).mp h
  rw [getElem?_take_of_some hget, any_some]
  exact fulfilled_iff.mpr fun u hu => resolved_take (fulfilled_iff.mp hready u hu)

omit [DecidableEq κ] in
theorem ready_release (h : l.ready t' = true) : (l.release t).ready t' = true := by
  rw [Locks.ready] at h ⊢
  obtain ⟨ticket, hget, hready⟩ := (Option.any_eq_true _ _).mp h
  have hprevious : ticket.previous.fulfilled (l.release t).resolved = true :=
    fulfilled_iff.mpr fun u hu => resolved_release (fulfilled_iff.mp hready u hu)
  rw [getElem?_release, hget, map_some, any_some]
  split
  · exact hprevious
  · exact hprevious

/-! ## Tickets in line -/

structure Lined (l : Locks κ) : Prop where
  last : ∀ t ticket, l.tickets[t]? = some ticket → Awaits (l.last ticket.key) t
  before : ∀ t t' ticket ticket', l.tickets[t]? = some ticket → l.tickets[t']? = some ticket' →
    ticket.key = ticket'.key → t < t' → Awaits ticket'.previous t
  /-- Only tickets there are are waited for. -/
  bound : ∀ key t, Awaits (l.last key) t → t < l.tickets.length

theorem lined_empty : Lined ({} : Locks κ) where
  last := nofun
  before := nofun
  bound := nofun

theorem getElem?_take (h : (l.take key).tickets[t]? = some ticket) :
    l.tickets[t]? = some ticket ∨ t = l.tickets.length ∧ ticket = ⟨key, l.last key, false⟩ := by
  rcases KeyedList.getElem?_concat_some h with hold | ⟨rfl, rfl⟩
  · exact .inl hold
  · exact .inr ⟨rfl, rfl⟩

theorem Lined.take (h : Lined l) (key : κ) : Lined (l.take key) where
  last := by
    intro t ticket hget
    rw [last_take]
    rcases getElem?_take hget with hold | ⟨rfl, rfl⟩
    · split
      next hkey =>
        left
        rw [hkey]
        exact h.last t ticket hold
      · exact h.last t ticket hold
    · rw [if_pos rfl]
      exact .inr rfl
  before := by
    intro t t' ticket ticket' hget hget' hkey hlt
    rcases getElem?_take hget' with hold' | ⟨rfl, rfl⟩
    · rcases getElem?_take hget with hold | ⟨rfl, -⟩
      · exact h.before t t' ticket ticket' hold hold' hkey hlt
      · -- the new ticket is behind every other
        have := (List.getElem?_eq_some_iff.mp hold').1
        omega
    · rcases getElem?_take hget with hold | ⟨rfl, -⟩
      · change Awaits (l.last key) t
        rw [← show ticket.key = key from hkey]
        exact h.last t ticket hold
      · exact absurd hlt (Nat.lt_irrefl _)
  bound := by
    intro key' t ht
    have hlength : (l.take key).tickets.length = l.tickets.length + 1 := by simp [Locks.take]
    rw [last_take] at ht
    rw [hlength]
    split at ht
    · rcases ht with ht | rfl
      · exact Nat.lt_succ_of_lt (h.bound key t ht)
      · exact Nat.lt_succ_self _
    · exact Nat.lt_succ_of_lt (h.bound key' t ht)

omit [DecidableEq κ] in
/-- A ticket that is there after a release was there before, with the same
key and the same promise. -/
theorem of_getElem?_release (hget : (l.release t).tickets[t']? = some ticket) :
    ∃ old, l.tickets[t']? = some old ∧ old.key = ticket.key ∧ old.previous = ticket.previous := by
  rw [getElem?_release] at hget
  obtain ⟨old, hold, rfl⟩ := map_eq_some_iff.mp hget
  refine ⟨old, hold, ?_, ?_⟩
  · split <;> rfl
  · split <;> rfl

theorem Lined.release (h : Lined l) (t : Nat) : Lined (l.release t) where
  last := by
    intro t' ticket hget
    obtain ⟨old, hold, hkey, -⟩ := of_getElem?_release hget
    rw [← hkey]
    exact h.last t' old hold
  before := by
    intro u u' ticket ticket' hget hget' hkey hlt
    obtain ⟨old, hold, hkeyOld, -⟩ := of_getElem?_release hget
    obtain ⟨old', hold', hkeyOld', hprevious⟩ := of_getElem?_release hget'
    rw [← hprevious]
    exact h.before u u' old old' hold hold' (by rw [hkeyOld, hkeyOld', hkey]) hlt
  bound := by
    intro key u hu
    have hlength : (l.release t).tickets.length = l.tickets.length := by simp [Locks.release]
    rw [hlength]
    exact h.bound key u hu

/-- **Exclusion**: of the tickets of a key that are not resolved, at most
one has its turn. -/
theorem Lined.eq_of_ready (h : Lined l) (hopen : l.Open key t) (hopen' : l.Open key t')
    (hready : l.ready t = true) (hready' : l.ready t' = true) : t = t' := by
  have hunresolved := hopen.unresolved
  have hunresolved' := hopen'.unresolved
  obtain ⟨ticket, hget, hkey, -⟩ := hopen
  obtain ⟨ticket', hget', hkey', -⟩ := hopen'
  rw [Locks.ready, hget, any_some, fulfilled_iff] at hready
  rw [Locks.ready, hget', any_some, fulfilled_iff] at hready'
  rcases Nat.lt_trichotomy t t' with hlt | heq | hgt
  · have hresolved := hready' t (h.before t t' ticket ticket' hget hget' (hkey.trans hkey'.symm) hlt)
    rw [hunresolved] at hresolved
    cases hresolved
  · exact heq
  · have hresolved := hready t' (h.before t' t ticket' ticket hget' hget (hkey'.trans hkey.symm) hgt)
    rw [hunresolved'] at hresolved
    cases hresolved

/-- A ticket has its turn at once when all before it are resolved. -/
theorem Lined.ready_take (h : Lined l) (hall : ∀ t < l.tickets.length, l.resolved t = true)
    (key : κ) : (l.take key).ready l.tickets.length = true := by
  rw [Locks.ready, show (l.take key).tickets[l.tickets.length]? = some ⟨key, l.last key, false⟩ by
    rw [Locks.take, getElem?_concat_length], any_some]
  exact fulfilled_iff.mpr fun t ht => resolved_take (hall t (h.bound key t ht))

/-! ## Programs with the lock -/

/-- Where a call is with respect to the lock. -/
inductive Place (κ : Type*) where
  | outside
  | queued (key : κ) (ticket : Nat)
  | inside (key : κ) (ticket : Nat)

/-- The ticket a call has in its hands. -/
def Place.held : Place κ → Option Nat
  | outside => none
  | queued _ t => some t
  | inside _ t => some t

/-- The key a call has its turn for. -/
def Place.lock : Place κ → Option κ
  | outside => none
  | queued _ _ => none
  | inside key _ => some key

/-- What a segment may do with the lock. -/
inductive Moves (l : Locks κ) : Place κ → Locks κ → Place κ → Prop
  | stay (place : Place κ) : Moves l place l place
  | take (key : κ) : Moves l .outside (l.take key) (.queued key l.tickets.length)
  | enter (key : κ) (t : Nat) (hready : l.ready t = true) :
    Moves l (.queued key t) l (.inside key t)
  | leave (key : κ) (t : Nat) : Moves l (.inside key t) (l.release t) .outside

/-- The place fits the locks. -/
def Place.Stands (l : Locks κ) : Place κ → Prop
  | outside => True
  | queued key t => l.Open key t
  | inside key t => l.Open key t ∧ l.ready t = true

section

variable {Q E S L R : Type*} (locks : S → Locks κ) (place : L → Place κ)

def placeOf : Coop.Task L R → Place κ
  | .waiting pc => place pc
  | .done _ => .outside

structure Follows (p : Program Q E S L R) : Prop where
  start : ∀ q, place (p.start q) = .outside
  moves : ∀ e pc s, Moves (locks s) (place pc) (locks (p.resume e pc s).1)
    (placeOf place (p.resume e pc s).2)

structure Locked (σ : Sys Q S L R) : Prop where
  lined : Lined (locks σ.shared)
  stands : Held (fun s pc => (place pc).Stands (locks s)) σ
  tickets : Exclusive (fun pc => (place pc).held) σ

variable {locks place} {p : Program Q E S L R} {σ : Sys Q S L R} {x x' : Place κ} {l' : Locks κ}

theorem locked_empty {s : S} (h : locks s = {}) :
    Locked locks place ({ shared := s } : Sys Q S L R) where
  lined := by
    rw [h]
    exact lined_empty
  stands := nofun
  tickets := nofun

omit [DecidableEq κ] in
/-- A ticket that is held is one there is. -/
theorem Place.Stands.lt (h : x.Stands l) (ht : x.held = some t) : t < l.tickets.length := by
  cases x with
  | outside => cases ht
  | queued key u =>
    cases ht
    exact Locks.Open.lt h
  | inside key u =>
    cases ht
    exact Locks.Open.lt h.1

/-- The one who moves stands where it moves to. -/
theorem Moves.stands (h : Moves l x l' x') (hx : x.Stands l) : x'.Stands l' := by
  cases h with
  | stay => exact hx
  | take key =>
    refine ⟨⟨key, l.last key, false⟩, ?_, rfl, rfl⟩
    rw [Locks.take, getElem?_concat_length]
  | enter key t hready => exact ⟨hx, hready⟩
  | leave key t => trivial

/-- The others stay where they are. -/
theorem Moves.others {y : Place κ} (h : Moves l x l' x')
    (hne : ∀ t, x.held = some t → y.held ≠ some t) (hy : y.Stands l) : y.Stands l' := by
  cases h with
  | stay | enter => exact hy
  | take key =>
    cases y with
    | outside => trivial
    | queued key' t => exact Locks.Open.take hy key
    | inside key' t => exact ⟨hy.1.take key, ready_take hy.2⟩
  | leave key t =>
    cases y with
    | outside => trivial
    | queued key' u => exact Locks.Open.release hy fun heq => hne t rfl (congrArg some heq.symm)
    | inside key' u =>
      exact ⟨hy.1.release fun heq => hne t rfl (congrArg some heq.symm), ready_release hy.2⟩

theorem Moves.lined (h : Moves l x l' x') (hl : Lined l) : Lined l' := by
  cases h with
  | stay | enter => exact hl
  | take key => exact hl.take key
  | leave key t => exact hl.release t

theorem Locked.step (h : Locked locks place σ) (hp : Follows locks place p) (k : Coop.Cmd Q E) :
    Locked locks place (step p σ k) where
  lined := shared_step (I := fun s => Lined (locks s)) h.lined fun e pc _ =>
    (hp.moves e pc σ.shared).lined h.lined
  stands := by
    refine h.stands.step_others (fun q _ => ?_) ?_ ?_
    · rw [hp.start q]
      trivial
    · intro e pc pc' _ hpc hnext
      have hmoves := hp.moves e pc σ.shared
      rw [hnext] at hmoves
      exact hmoves.stands hpc
    · intro i e q pc j q' pc' _ hi hji hj _ hpc'
      refine (hp.moves e pc σ.shared).others (fun t ht ht' => hji ?_) hpc'
      exact h.tickets j i _ _ t hj hi ht' ht
  tickets := by
    refine h.tickets.step (fun q => ?_) ?_
    · rw [hp.start q]
      rfl
    · intro e pc pc' t _ hnext ht
      have hmoves := hp.moves e pc σ.shared
      rw [hnext] at hmoves
      change Moves _ _ _ (place pc') at hmoves
      generalize hx : place pc = x at hmoves
      generalize hx' : place pc' = x' at hmoves
      generalize (locks (p.resume e pc σ.shared).1) = l' at hmoves
      rw [hx'] at ht
      cases hmoves with
      | stay | enter => exact .inl ht
      | leave key u => cases ht
      | take key =>
        right
        cases ht
        intro c hc hheld
        obtain ⟨pc'', hpc'', hticket⟩ := heldBy_eq_some.mp hheld
        exact absurd ((h.stands c hc pc'' hpc'').lt hticket) (Nat.lt_irrefl _)

/-- **Mutual exclusion**: no two calls have their turn for one key. -/
theorem Locked.exclusive (h : Locked locks place σ) : Exclusive (fun pc => (place pc).lock) σ := by
  intro i j c c' key hi hj hc hc'
  obtain ⟨pc, hpc, hlock⟩ := heldBy_eq_some.mp hc
  obtain ⟨pc', hpc', hlock'⟩ := heldBy_eq_some.mp hc'
  have hinside : ∀ {x : Place κ}, x.lock = some key → ∃ t, x = .inside key t := by
    intro x hx
    cases x with
    | outside | queued => cases hx
    | inside key' t =>
      cases hx
      exact ⟨t, rfl⟩
  obtain ⟨t, hplace⟩ := hinside hlock
  obtain ⟨t', hplace'⟩ := hinside hlock'
  have hstands : (place pc).Stands (locks σ.shared) := h.stands c (mem_of_getElem? hi) pc hpc
  have hstands' : (place pc').Stands (locks σ.shared) := h.stands c' (mem_of_getElem? hj) pc' hpc'
  rw [hplace] at hstands
  rw [hplace'] at hstands'
  obtain rfl := h.lined.eq_of_ready hstands.1 hstands'.1 hstands.2 hstands'.2
  refine h.tickets i j c c' t hi hj ?_ ?_
  · exact heldBy_eq_some.mpr ⟨pc, hpc, by rw [hplace]; rfl⟩
  · exact heldBy_eq_some.mpr ⟨pc', hpc', by rw [hplace']; rfl⟩

end

end TicketLock
