import ChronoPay.HorizonSse
import ChronoPay.Lib.Machine
import Mathlib.Data.List.Nodup

/-!
# HorizonStream — reconnecting and the cursor

`streamEvents` connects, hands the events to the caller and stores the
cursor of each event the caller accepted; when the connection is lost or
the caller rejects an event it connects again. A connection asks for the
events after a cursor: `resumeAfter` if the caller gave one, otherwise
the stored one.

The server has a fixed log and sends what comes after the cursor, as far
as it gets. With the stored cursor, what was handled is always the
beginning of the log. `resumeAfter` takes the place of the stored cursor
in every connection, not only in the first, so a connection made after
something was handled starts over: the property holds exactly as long as
no such connection gets an event through (`handled_beginning_iff`).

`accepts` says which of the calls of `onEvent` resolve, by number. The
cursor store does not fail. Delays and `onReconnect` are not modelled.
-/

namespace ChronoPay.HorizonStream

open HorizonSse JsonText List Machine Option

/-- A paging token, as UTF-16 code units. -/
abbrev Cursor := List Nat

/-! ## The server -/

/-- The events behind the first one with the cursor. -/
def eventsAfter (cursor : Cursor) : List SentEvent → List SentEvent
  | [] => []
  | e :: rest => if e.pagingToken = cursor then rest else eventsAfter cursor rest

/-- What the server has after an initial cursor, each event with a paging
token of its own. -/
structure Server where
  initial : Cursor
  log : List SentEvent
  lineEnd : LineEnd
  distinct : (initial :: log.map SentEvent.pagingToken).Nodup

namespace Server

variable (server : Server)

/-- The events it sends to who connects with a cursor. -/
def after (cursor : Cursor) : List SentEvent :=
  if cursor = server.initial then server.log else eventsAfter cursor server.log

/-- The cursors of the log, the initial one first. -/
def cursors : List Cursor := server.initial :: server.log.map SentEvent.pagingToken

/-- The events as the caller is to get them. -/
def events : List HorizonSseEvent := server.log.map SentEvent.received

end Server

theorem eventsAfter_eq_drop {log : List SentEvent} {cursor : Cursor} {n : Nat}
    (hdistinct : (log.map SentEvent.pagingToken).Nodup)
    (hn : (log.map SentEvent.pagingToken)[n]? = some cursor) :
    eventsAfter cursor log = log.drop (n + 1) := by
  induction log generalizing n with
  | nil => cases hn
  | cons e log ih =>
    rw [map_cons, nodup_cons] at hdistinct
    cases n with
    | zero =>
      rw [eventsAfter, if_pos (Option.some.inj hn)]
      rfl
    | succ n =>
      have htail : (log.map SentEvent.pagingToken)[n]? = some cursor := hn
      have hne : e.pagingToken ≠ cursor := by
        intro heq
        exact hdistinct.1 (heq ▸ mem_of_getElem? htail)
      rw [eventsAfter, if_neg hne, ih hdistinct.2 htail]
      rfl

/-- The server goes on right behind the cursor. -/
theorem Server.after_eq_drop {server : Server} {cursor : Cursor} {n : Nat}
    (hn : server.cursors[n]? = some cursor) : server.after cursor = server.log.drop n := by
  obtain ⟨hfresh, hdistinct⟩ := nodup_cons.mp server.distinct
  cases n with
  | zero =>
    rw [Server.after, if_pos (Option.some.inj hn).symm]
    rfl
  | succ n =>
    have htail : (server.log.map SentEvent.pagingToken)[n]? = some cursor := hn
    have hne : cursor ≠ server.initial := by
      intro heq
      exact hfresh (heq ▸ mem_of_getElem? htail)
    rw [Server.after, if_neg hne, eventsAfter_eq_drop hdistinct htail]

/-! ## The stream -/

structure StreamEventsOptions where
  resumeAfter : Option Cursor
  /-- Whether the `n`-th call of `onEvent` resolves. -/
  accepts : Nat → Bool

inductive Status where
  | running
  | finished
  | threw (status : Nat)
  deriving DecidableEq

structure Stream where
  /-- The cursor in the store. -/
  store : Option Cursor
  /-- The events whose `onEvent` resolved, in order. -/
  handled : List HorizonSseEvent := []
  calls : Nat := 0
  status : Status := .running

/-- What comes of one connection. A body is what the server sends, up to
`cut`, in chunks of the given sizes. -/
inductive Attempt where
  | networkError
  | httpError (status : Nat)
  | noBody
  | aborted
  | body (cut : Nat) (sizes : List Nat) (ending : Ending)

/-- A text in chunks of the given sizes, and the rest. -/
def chunksOf : List Nat → List Char → List (List Char)
  | [], text => [text]
  | size :: sizes, text => text.take size :: chunksOf sizes (text.drop size)

theorem flatten_chunksOf (sizes : List Nat) (text : List Char) :
    (chunksOf sizes text).flatten = text := by
  induction sizes generalizing text with
  | nil => rw [chunksOf, flatten_cons, flatten_nil, append_nil]
  | cons size sizes ih => rw [chunksOf, flatten_cons, ih, take_append_drop]

section

variable (server : Server) (options : StreamEventsOptions)

/-- `onEvent`, and then the cursor is stored. -/
def onEvent (event : HorizonSseEvent) (st : Stream) : Stream × Bool :=
  if options.accepts st.calls then
    ({ st with
        store := some event.cursor
        handled := st.handled ++ [event]
        calls := st.calls + 1 }, true)
  else ({ st with calls := st.calls + 1 }, false)

/-- The cursor a connection is made with. -/
def initialCursor (st : Stream) : Cursor := (options.resumeAfter.or st.store).getD (units "now")

/-- What the server sends on a connection. -/
def sent (st : Stream) (cut : Nat) : List Char :=
  (stream server.lineEnd (server.after (initialCursor options st))).take cut

/-- One turn of the loop. -/
def connect (st : Stream) : Attempt → Stream
  | .networkError => st
  | .httpError status =>
    if 400 ≤ status ∧ status < 500 then { st with status := .threw status } else st
  | .noBody => { st with status := .finished }
  | .aborted => { st with status := .finished }
  | .body cut sizes ending =>
    let result := runSseConnection (onEvent options)
      ((chunksOf sizes (sent server options st cut)).map Read.chunk ++ ending.reads) st
    if result.2.aborted then { result.1 with status := .finished }
    else if result.2.reconnects then result.1
    else { result.1 with status := .finished }

def streamEvents (st : Stream) (attempt : Attempt) : Stream :=
  if st.status = .running then connect server options st attempt else st

end

variable {server : Server} {options : StreamEventsOptions} {st : Stream}

/-! ## What a connection hands over -/

/-- What the caller has accepted and what is stored. -/
def Stream.book (st : Stream) : List HorizonSseEvent × Option Cursor := (st.handled, st.store)

/-- A connection leaves the books alone, or they are as the delivery of
what is heard leaves them. -/
theorem streamEvents_book (st : Stream) (attempt : Attempt) :
    (streamEvents server options st attempt).book = st.book ∨
      ∃ cut ending, (streamEvents server options st attempt).book
        = (deliverAll (onEvent options) (Ending.heard ending (sent server options st cut))
            st).1.book := by
  rw [streamEvents]
  split
  · cases attempt with
    | networkError | noBody | aborted => exact .inl rfl
    | httpError status =>
      left
      rw [connect]
      split
      · rfl
      · rfl
    | body cut sizes ending =>
      refine .inr ⟨cut, ending, ?_⟩
      rw [← flatten_chunksOf sizes (sent server options st cut),
        ← runSseConnection_eq (chunksOf sizes (sent server options st cut)) ending st, connect]
      split_ifs
      · rfl
      · rfl
      · rfl
  · exact .inl rfl

/-- With line feeds, what is heard is the beginning of what comes after
the cursor. -/
theorem heard_sent (options : StreamEventsOptions) (hlf : server.lineEnd = .lf) (st : Stream)
    (cut : Nat) (ending : Ending) :
    ending.heard (sent server options st cut)
      <+: (server.after (initialCursor options st)).map SentEvent.received := by
  refine (ending.heard_prefix _).trans (eventsOf_stream_cut ?_)
  rw [sent, hlf]
  exact take_prefix _ _

/-- What is handled is the beginning of what is delivered. -/
theorem deliverAll_handled (options : StreamEventsOptions) (events : List HorizonSseEvent)
    (st : Stream) :
    ∃ handed, handed <+: events ∧
      (deliverAll (onEvent options) events st).1.handled = st.handled ++ handed := by
  induction events generalizing st with
  | nil => exact ⟨[], prefix_rfl, (append_nil _).symm⟩
  | cons event events ih =>
    rw [deliverAll, onEvent]
    split
    · obtain ⟨handed, hhanded, heq⟩ := ih { st with
        store := some event.cursor
        handled := st.handled ++ [event]
        calls := st.calls + 1 }
      refine ⟨event :: handed, cons_prefix_cons.mpr ⟨rfl, hhanded⟩, ?_⟩
      exact heq.trans (append_cons ..).symm
    · exact ⟨[], nil_prefix, (append_nil _).symm⟩

/-! ## With the stored cursor -/

/-- What was handled is the beginning of the log, and the stored cursor is
where it ends. -/
def CaughtUp (server : Server) (st : Stream) : Prop :=
  ∃ n cursor, st.handled = server.events.take n ∧ server.cursors[n]? = some cursor ∧
    st.store = some cursor

theorem CaughtUp.of_book {st' : Stream} (h : CaughtUp server st) (hbook : st'.book = st.book) :
    CaughtUp server st' := by
  obtain ⟨n, cursor, hhandled, hn, hstore⟩ := h
  obtain ⟨hhandled', hstore'⟩ := Prod.mk.inj hbook
  exact ⟨n, cursor, hhandled'.trans hhandled, hn, hstore'.trans hstore⟩

/-- An accepted event moves the end of the beginning. -/
theorem deliverAll_caughtUp {n : Nat} {cursor : Cursor} {events : List HorizonSseEvent}
    {st : Stream} (hhandled : st.handled = server.events.take n)
    (hn : server.cursors[n]? = some cursor) (hstore : st.store = some cursor)
    (hevents : events <+: server.events.drop n) :
    CaughtUp server (deliverAll (onEvent options) events st).1 := by
  induction events generalizing n cursor st with
  | nil => exact ⟨n, cursor, hhandled, hn, hstore⟩
  | cons event events ih =>
    rw [deliverAll, onEvent]
    split
    · obtain ⟨rest, hrest⟩ := hevents
      have hevent : server.events[n]? = some event := by
        rw [← head?_drop, ← hrest]
        rfl
      obtain ⟨e, he, rfl⟩ := map_eq_some_iff.mp ((getElem?_map ..).symm.trans hevent)
      refine ih (n := n + 1) ?_ ?_ rfl ?_
      · show st.handled ++ [_] = _
        rw [hhandled, take_add_one, hevent, toList_some]
      · show (server.log.map SentEvent.pagingToken)[n]? = _
        rw [getElem?_map, he]
        rfl
      · rw [← drop_drop, ← hrest]
        exact ⟨rest, rfl⟩
    · exact ⟨n, cursor, hhandled, hn, hstore⟩

theorem CaughtUp.streamEvents (hlf : server.lineEnd = .lf) (hresume : options.resumeAfter = none)
    (h : CaughtUp server st) (attempt : Attempt) :
    CaughtUp server (HorizonStream.streamEvents server options st attempt) := by
  rcases streamEvents_book st attempt with hsame | ⟨cut, ending, hbook⟩
  · exact h.of_book hsame
  · refine CaughtUp.of_book ?_ hbook
    obtain ⟨n, cursor, hhandled, hn, hstore⟩ := h
    refine deliverAll_caughtUp hhandled hn hstore ?_
    have hheard := heard_sent options hlf st cut ending
    rw [initialCursor, hresume, hstore, none_or, getD_some,
      Server.after_eq_drop hn, map_drop] at hheard
    exact hheard

theorem CaughtUp.beginning (h : CaughtUp server st) : st.handled <+: server.events := by
  obtain ⟨n, cursor, hhandled, -, -⟩ := h
  exact hhandled ▸ take_prefix _ _

/-! ## With `resumeAfter` -/

/-- Every connection starts over. -/
theorem streamEvents_handled (hlf : server.lineEnd = .lf)
    (hresume : options.resumeAfter = some server.initial) (st : Stream) (attempt : Attempt) :
    ∃ handed, handed <+: server.events ∧
      (streamEvents server options st attempt).handled = st.handled ++ handed := by
  rcases streamEvents_book st attempt with hsame | ⟨cut, ending, hbook⟩
  · exact ⟨[], nil_prefix, (congrArg Prod.fst hsame).trans (append_nil _).symm⟩
  · obtain ⟨handed, hhanded, heq⟩ := deliverAll_handled options
      (ending.heard (sent server options st cut)) st
    refine ⟨handed, hhanded.trans ?_, (congrArg Prod.fst hbook).trans heq⟩
    have hheard := heard_sent options hlf st cut ending
    rw [initialCursor, hresume, some_or, getD_some, Server.after, if_pos rfl] at hheard
    exact hheard

theorem Server.events_nodup (server : Server) : server.events.Nodup := by
  have hcursors : (server.events.map HorizonSseEvent.cursor).Nodup := by
    rw [Server.events, List.map_map]
    exact (nodup_cons.mp server.distinct).2
  exact List.Nodup.of_map _ hcursors

/-- The log does not begin again behind its beginning. -/
theorem eq_nil_of_repeated {α : Type} {log first second : List α} (hlog : log.Nodup)
    (hne : first ≠ []) (hsecond : second <+: log) (h : first ++ second <+: log) : second = [] := by
  cases second with
  | nil => rfl
  | cons b second =>
    obtain ⟨a, first, rfl⟩ := exists_cons_of_ne_nil hne
    obtain ⟨rest, rfl⟩ := h
    have hab : b = a := by
      rw [cons_append, cons_append, cons_prefix_cons] at hsecond
      exact hsecond.1
    subst hab
    rw [cons_append, cons_append, nodup_cons] at hlog
    exact absurd (by simp) hlog.1

/-! ## The beginning of the log -/

/-- What was handled is the beginning of the log in every state of a run
exactly if no connection made with `resumeAfter` gets an event through
after another did. -/
theorem handled_beginning_iff (server : Server) (options : StreamEventsOptions)
    (store : Option Cursor) (hinitial : options.resumeAfter.or store = some server.initial)
    (hlf : server.lineEnd = .lf) (attempts : List Attempt) :
    Always (streamEvents server options) (fun st => st.handled <+: server.events)
        { store := store } attempts ↔
      Along (streamEvents server options)
        (fun st attempt => options.resumeAfter = none ∨ st.handled = [] ∨
          (streamEvents server options st attempt).handled = st.handled)
        { store := store } attempts := by
  cases hresume : options.resumeAfter with
  | none =>
    rw [hresume, none_or] at hinitial
    refine iff_of_true (Always.mono (fun st h => CaughtUp.beginning h) ?_)
      (along_of_forall (fun _ _ => .inl rfl) _ _)
    exact always_of_inv (fun st attempt h => h.streamEvents hlf hresume attempt)
      ⟨0, server.initial, rfl, rfl, hinitial⟩ attempts
  | some cursor =>
    rw [hresume, some_or] at hinitial
    rw [hinitial] at hresume
    refine always_iff_along (Q := fun st : Stream => st.handled <+: server.events)
      (fun st attempt hst => ?_) nil_prefix attempts
    obtain ⟨handed, hhanded, heq⟩ := streamEvents_handled hlf hresume st attempt
    rw [heq]
    by_cases hnil : st.handled = []
    · rw [hnil, nil_append]
      exact iff_of_true hhanded (.inr (.inl rfl))
    constructor
    · intro hbeginning
      rw [eq_nil_of_repeated server.events_nodup hnil hhanded hbeginning, append_nil]
      exact .inr (.inr rfl)
    · intro hkept
      rcases hkept with hnone | hempty | hsame
      · cases hnone
      · exact absurd hempty hnil
      · rw [hsame]
        exact hst

/-- Two payments after the cursor "0". -/
def twoPaymentsServer (lineEnd : LineEnd) : Server where
  initial := units "0"
  log := twoPayments
  lineEnd := lineEnd
  distinct := by decide

/-- A body that comes whole before the connection is lost. -/
def wholeThenLost : Attempt := .body 1000 [] .dropped

theorem twoPayments_beginning :
    Always (streamEvents (twoPaymentsServer .lf) ⟨some (units "0"), fun n => n != 0⟩)
      (fun st => st.handled <+: (twoPaymentsServer .lf).events) { store := none }
      [.networkError, .httpError 503, .body 90 [7, 40] .dropped, wholeThenLost] := by
  refine (handled_beginning_iff _ _ _ rfl rfl _).mpr ⟨?_, ?_, ?_, ?_, trivial⟩
  · exact .inr (.inl rfl)
  · exact .inr (.inl rfl)
  · exact .inr (.inl rfl)
  · exact .inr (.inl (by decide +kernel))

/-- With `resumeAfter`, two connections that are lost at the end hand over
both payments twice. Where lines end with CR LF, a body that ends inside
the second frame has the first payment with the type of the second. -/
theorem resumeAfter_handled_twice :
    (run (streamEvents (twoPaymentsServer .lf) ⟨some (units "0"), fun _ => true⟩)
        { store := none } [wholeThenLost, wholeThenLost]).handled.map HorizonSseEvent.cursor
      = [units "1", units "2", units "1", units "2"] ∧
    (run (streamEvents (twoPaymentsServer .crlf) ⟨none, fun _ => true⟩)
        { store := some (units "0") } [.body 55 [] .dropped]).handled.map
          (fun event => (event.cursor, event.eventType)) = [(units "1", "pa".toList)] := by
  decide +kernel

end ChronoPay.HorizonStream
