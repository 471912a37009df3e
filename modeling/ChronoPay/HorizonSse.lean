import ChronoPay.JsText
import ChronoPay.Lib.JsonText
import ChronoPay.Lib.TextPieces
import ChronoPay.Lib.TextScan

/-!
# HorizonSse — server-sent events, read in chunks

`runSseConnection` keeps the text it has not cut yet, cuts it at empty
lines with every chunk and hands the events of the complete frames to
the caller; what is left when the body ends is read as a frame too. For
any handler this is reading the frames of the whole text in order
(`readLoop_eq`): how the text was cut into chunks makes no difference.

The empty line is looked for as two line feeds. A server that ends its
lines with CR LF never sends two in a row, so all its frames are one
frame, whose data is the lines of all events: readable if there is one
event, and nothing at all if there are more (`onEvent_calls_iff`).

Text is what the decoder makes of the bytes, as characters; the rules of
the decoder are not part of the model. An abort is seen at the next read.
-/

namespace ChronoPay.HorizonSse

open JsonText List Option TextPieces TextScan

/-! ## Frames -/

structure HorizonSseEvent where
  /-- A paging token, as UTF-16 code units. -/
  cursor : List Nat
  eventType : List Char
  data : Json

/-- What the lines of a frame have said so far. -/
structure Fields where
  eventType : List Char := "message".toList
  dataLine : Option (List Char) := none

def readLine (fields : Fields) (line : List Char) : Fields :=
  if ":".toList <+: line then fields
  else if "event:".toList <+: line then
    { fields with eventType := trimBy isJsSpace (line.drop 6) }
  else if "data:".toList <+: line then
    { fields with dataLine := some (match fields.dataLine with
      | none => line.drop 5
      | some lines => lines ++ '\n' :: line.drop 5) }
  else fields

/-- `data !== null && typeof data === "object"`. -/
def isObject : Json → Bool
  | .object _ => true
  | .array _ => true
  | _ => false

def cursorOf (data : Json) : List Nat :=
  match data.get "paging_token" with
  | some (.string token) => token
  | _ => match data.get "id" with
    | some (.string id) => id
    | _ => []

/-- The event of the lines of a frame. -/
def Fields.event (fields : Fields) : Option HorizonSseEvent := do
  let dataLine ← fields.dataLine
  let data ← parse (trimBy isJsSpace dataLine)
  if isObject data then some { cursor := cursorOf data, eventType := fields.eventType, data }
  else none

def parseSseFrame (frame : List Char) : Option HorizonSseEvent :=
  ((TextScan.split '\n' frame).foldl readLine {}).event

/-- `frame.replace(/\r\n/g, "\n")`. -/
def normalize : List Char → List Char
  | [] => []
  | [c] => [c]
  | c :: d :: rest =>
    if c = '\r' ∧ d = '\n' then '\n' :: normalize rest else c :: normalize (d :: rest)

/-- The event of a frame as it came. -/
def parseRaw (frame : List Char) : Option HorizonSseEvent := parseSseFrame (normalize frame)

/-! ## A connection -/

/-- How a read of the body ends. The end of the body is the end of the
list of reads. -/
inductive Read where
  | chunk (text : List Char)
  | failed
  | aborted

structure SseConnectionOutcome where
  aborted : Bool := false
  streamError : Bool := false
  handlerError : Bool := false
  deriving DecidableEq

section

variable {σ : Type} (onEvent : HorizonSseEvent → σ → σ × Bool)

/-- Hand over events until the handler rejects one. -/
def deliverAll : List HorizonSseEvent → σ → σ × Bool
  | [], s => (s, true)
  | event :: events, s =>
    if (onEvent event s).2 then deliverAll events (onEvent event s).1
    else ((onEvent event s).1, false)

/-- What is done with the text that is left, unless the signal fired. -/
def finish (outcome : SseConnectionOutcome) (buffer : List Char) (s : σ) :
    σ × SseConnectionOutcome :=
  if buffer ≠ [] then
    let delivered := deliverAll onEvent (parseRaw buffer).toList s
    (delivered.1, { outcome with handlerError := !delivered.2 })
  else (s, outcome)

def readLoop : List Char → List Read → σ → σ × SseConnectionOutcome
  | buffer, [], s => finish onEvent {} buffer s
  | buffer, .failed :: _, s => finish onEvent { streamError := true } buffer s
  | _, .aborted :: _, s => (s, { aborted := true })
  | buffer, .chunk text :: reads, s =>
    let frames := splitDoubled '\n' (buffer ++ text)
    let delivered := deliverAll onEvent (frames.dropLast.filterMap parseRaw) s
    if delivered.2 then readLoop (frames.getLastD []) reads delivered.1
    else (delivered.1, { handlerError := true })

/-- The handler takes an event to a new state, and resolves or rejects. -/
def runSseConnection (reads : List Read) (s : σ) : σ × SseConnectionOutcome :=
  readLoop onEvent [] reads s

/-! ## The whole text -/

/-- The events of a text read as a whole. -/
def eventsOf (text : List Char) : List HorizonSseEvent :=
  (splitDoubled '\n' text).filterMap parseRaw

theorem deliverAll_append (events events' : List HorizonSseEvent) (s : σ) :
    deliverAll onEvent (events ++ events') s
      = if (deliverAll onEvent events s).2 then
          deliverAll onEvent events' (deliverAll onEvent events s).1
        else ((deliverAll onEvent events s).1, false) := by
  induction events generalizing s with
  | nil => rfl
  | cons event events ih =>
    simp only [cons_append, deliverAll]
    split
    · exact ih _
    · rfl

theorem eventsOf_whole {buffer : List Char} (hwhole : Whole '\n' buffer) :
    eventsOf buffer = (parseRaw buffer).toList := by
  rw [eventsOf, hwhole]
  cases hparsed : parseRaw buffer with
  | none => rw [filterMap_cons_none hparsed]; rfl
  | some event => rw [filterMap_cons_some hparsed]; rfl

end

/-- How a body ends: the server closes it, the connection is lost, or the
signal fires. -/
inductive Ending where
  | closed
  | dropped
  | aborted
  deriving DecidableEq

def Ending.reads : Ending → List Read
  | .closed => []
  | .dropped => [.failed]
  | .aborted => [.aborted]

/-- The events of a text that ends so: after an abort, what is left behind
the last frame is not looked at. -/
def Ending.heard (ending : Ending) (text : List Char) : List HorizonSseEvent :=
  match ending with
  | .aborted => (splitDoubled '\n' text).dropLast.filterMap parseRaw
  | _ => eventsOf text

theorem Ending.heard_append (ending : Ending) (first second : List Char) :
    ending.heard (first ++ second)
      = (splitDoubled '\n' first).dropLast.filterMap parseRaw ++
        ending.heard ((splitDoubled '\n' first).getLastD [] ++ second) := by
  cases ending with
  | closed | dropped =>
    show eventsOf _ = _ ++ eventsOf _
    rw [eventsOf, splitDoubled_append, filterMap_append, eventsOf]
  | aborted =>
    rw [Ending.heard, splitDoubled_append,
      dropLast_append_of_ne_nil (splitDoubled_ne_nil _), filterMap_append]
    rfl

/-- What is heard is the beginning of what is sent. -/
theorem Ending.heard_prefix (ending : Ending) (text : List Char) :
    ending.heard text <+: eventsOf text := by
  cases ending with
  | closed | dropped => exact prefix_rfl
  | aborted => exact ( dropLast_prefix _).filterMap _

/-- The caller connects again. -/
def SseConnectionOutcome.reconnects (outcome : SseConnectionOutcome) : Bool :=
  outcome.handlerError || outcome.streamError

section

variable {σ : Type} {onEvent : HorizonSseEvent → σ → σ × Bool}

theorem finish_whole {outcome : SseConnectionOutcome} (hfresh : outcome.handlerError = false)
    {buffer : List Char} (hwhole : Whole '\n' buffer) (s : σ) :
    finish onEvent outcome buffer s
      = ((deliverAll onEvent (eventsOf buffer) s).1,
          { outcome with handlerError := !(deliverAll onEvent (eventsOf buffer) s).2 }) := by
  rw [eventsOf_whole hwhole, finish]
  split
  · rfl
  next hnil =>
    obtain rfl := not_not.mp hnil
    obtain ⟨aborted, streamError, handlerError⟩ := outcome
    obtain rfl : handlerError = false := hfresh
    rfl

/-- **Reading in chunks is reading the whole text**: the same events reach
the handler, and the caller reconnects if it rejected one or the
connection was lost. -/
theorem readLoop_eq (chunks : List (List Char)) (ending : Ending) {buffer : List Char}
    (hwhole : Whole '\n' buffer) (s : σ) :
    (readLoop onEvent buffer (chunks.map Read.chunk ++ ending.reads) s).1
        = (deliverAll onEvent (ending.heard (buffer ++ chunks.flatten)) s).1 ∧
      (readLoop onEvent buffer (chunks.map Read.chunk ++ ending.reads) s).2.reconnects
        = (!(deliverAll onEvent (ending.heard (buffer ++ chunks.flatten)) s).2
            || decide (ending = .dropped)) := by
  induction chunks generalizing buffer s with
  | nil =>
    rw [map_nil, nil_append, flatten_nil, append_nil]
    cases ending with
    | closed | dropped =>
      rw [Ending.reads, readLoop, finish_whole rfl hwhole]
      exact ⟨rfl, rfl⟩
    | aborted =>
      rw [Ending.reads, readLoop, Ending.heard, show splitDoubled '\n' buffer = _ from hwhole]
      exact ⟨rfl, rfl⟩
  | cons chunk chunks ih =>
    rw [flatten_cons, ← append_assoc, Ending.heard_append, deliverAll_append]
    simp only [map_cons, cons_append, readLoop]
    split
    · exact ih (whole_getLastD _) _
    · exact ⟨rfl, rfl⟩

theorem runSseConnection_eq (chunks : List (List Char)) (ending : Ending) (s : σ) :
    (runSseConnection onEvent (chunks.map Read.chunk ++ ending.reads) s).1
      = (deliverAll onEvent (ending.heard chunks.flatten) s).1 :=
  (readLoop_eq chunks ending (show Whole '\n' [] from rfl) s).1

end

/-! ## What is sent -/

/-- An event as a server sends it: what follows `event:`, if it sends that
line, and what follows `data:`. -/
structure SentEvent where
  eventLine : Option (List Char)
  dataLine : List Char
  data : Json
  pagingToken : List Nat
  event_unbroken : ∀ line ∈ eventLine, '\n' ∉ line ∧ '\r' ∉ line
  data_unbroken : '\n' ∉ dataLine ∧ '\r' ∉ dataLine
  parsed : parse (trimBy isJsSpace dataLine) = some data
  token : data.get "paging_token" = some (.string pagingToken)

/-- The event the handler is to get. -/
def SentEvent.received (e : SentEvent) : HorizonSseEvent :=
  { cursor := e.pagingToken
    eventType := (e.eventLine.map (trimBy isJsSpace)).getD "message".toList
    data := e.data }

inductive LineEnd where
  | lf
  | crlf
  deriving DecidableEq

def LineEnd.chars : LineEnd → List Char
  | .lf => ['\n']
  | .crlf => ['\r', '\n']

/-- The lines of a frame. -/
def SentEvent.lines (e : SentEvent) : List (List Char) :=
  (e.eventLine.map ("event:".toList ++ ·)).toList ++ ["data:".toList ++ e.dataLine]

/-- A frame, with the empty line that ends it. -/
def SentEvent.frame (lineEnd : LineEnd) (e : SentEvent) : List Char :=
  (e.lines ++ [[]]).flatMap (· ++ lineEnd.chars)

def stream (lineEnd : LineEnd) (events : List SentEvent) : List Char :=
  events.flatMap (SentEvent.frame lineEnd)

/-! ## Lines -/

variable {e : SentEvent} {events : List SentEvent} {fields : Fields}

theorem readLine_nil (fields : Fields) : readLine fields [] = fields := by
  simp [readLine]

theorem readLine_event (fields : Fields) (text : List Char) :
    readLine fields ("event:".toList ++ text)
      = { fields with eventType := trimBy isJsSpace text } := by
  simp [readLine]

/-- What a further line of data makes of the data so far. -/
def addData (dataLine : Option (List Char)) (text : List Char) : List Char :=
  match dataLine with
  | none => text
  | some lines => lines ++ '\n' :: text

theorem readLine_data (fields : Fields) (text : List Char) :
    readLine fields ("data:".toList ++ text)
      = { fields with dataLine := some (addData fields.dataLine text) } := by
  simp [readLine, addData]

theorem normalize_cons {c : Char} (hc : c ≠ '\r') (text : List Char) :
    normalize (c :: text) = c :: normalize text := by
  cases text with
  | nil => rfl
  | cons d rest => rw [normalize, if_neg fun h => hc h.1]

theorem normalize_append {text : List Char} (h : '\r' ∉ text) (rest : List Char) :
    normalize (text ++ rest) = text ++ normalize rest := by
  induction text with
  | nil => rfl
  | cons c text ih =>
    obtain ⟨hc, htext⟩ := not_or.mp (mt mem_cons.mpr h)
    rw [cons_append, normalize_cons (Ne.symm hc), ih htext, cons_append]

theorem normalize_eq_self {text : List Char} (h : '\r' ∉ text) : normalize text = text := by
  have := normalize_append h []
  rwa [append_nil, normalize, append_nil] at this

theorem normalize_lines {lines : List (List Char)} (h : ∀ line ∈ lines, '\r' ∉ line) :
    normalize (lines.flatMap (· ++ LineEnd.crlf.chars)) = lines.flatMap (· ++ ['\n']) := by
  induction lines with
  | nil => rfl
  | cons line lines ih =>
    obtain ⟨hline, hlines⟩ := forall_mem_cons.mp h
    rw [flatMap_cons, flatMap_cons, append_assoc, normalize_append hline, ← ih hlines]
    show line ++ normalize ('\r' :: '\n' :: _) = _
    rw [normalize, if_pos ⟨rfl, rfl⟩, append_assoc, singleton_append]
    rfl

/-! ## Frames with line feeds -/

/-- The event line of a frame, if there is one. -/
def SentEvent.eventPart (e : SentEvent) : List Char :=
  (e.eventLine.map fun text => "event:".toList ++ text ++ ['\n']).getD []

def SentEvent.dataPart (e : SentEvent) : List Char := "data:".toList ++ e.dataLine

variable (e)

theorem SentEvent.frame_lf : e.frame .lf = e.eventPart ++ e.dataPart ++ ['\n', '\n'] := by
  unfold SentEvent.frame SentEvent.lines SentEvent.eventPart SentEvent.dataPart
  cases e.eventLine with
  | none | some => simp [LineEnd.chars]

theorem SentEvent.dataPart_unbroken : '\n' ∉ e.dataPart ∧ '\r' ∉ e.dataPart := by
  obtain ⟨hn, hr⟩ := e.data_unbroken
  simp [SentEvent.dataPart, hn, hr]

/-- What the event line says, before any data. -/
def SentEvent.typed (e : SentEvent) : Fields := { eventType := e.received.eventType }

variable {text : List Char}

theorem whole_eventPart_append (htext : Whole '\n' text)
    (hhead : text.head? ≠ some '\n') : Whole '\n' (e.eventPart ++ text) := by
  unfold SentEvent.eventPart
  cases hline : e.eventLine with
  | none => exact htext
  | some line =>
    have hn := (e.event_unbroken line hline).1
    simp only [map_some, getD_some, append_assoc, singleton_append]
    rw [← append_assoc]
    exact whole_append (by simp [hn]) htext hhead

theorem foldl_eventPart_append (rest : List Char) :
    (TextScan.split '\n' (e.eventPart ++ rest)).foldl readLine {}
      = (TextScan.split '\n' rest).foldl readLine e.typed := by
  unfold SentEvent.eventPart SentEvent.typed SentEvent.received
  cases hline : e.eventLine with
  | none => rfl
  | some line =>
    have hn := (e.event_unbroken line hline).1
    simp only [map_some, getD_some, append_assoc, singleton_append]
    rw [← append_assoc, split_append (by simp [hn]), foldl_cons, readLine_event]

theorem SentEvent.eventPart_no_cr : '\r' ∉ e.eventPart := by
  unfold SentEvent.eventPart
  cases hline : e.eventLine with
  | none => exact not_mem_nil
  | some line => simp [(e.event_unbroken line hline).2]

theorem whole_eventPart_line (h : '\n' ∉ text) : Whole '\n' (e.eventPart ++ text) :=
  whole_eventPart_append e (whole_of_not_mem h) fun hhead => h (mem_of_head? hhead)

/-- A frame as far as it goes, with the last line as it is. -/
theorem parseRaw_eventPart_append (hn : '\n' ∉ text) (hr : '\r' ∉ text) :
    parseRaw (e.eventPart ++ text) = (readLine e.typed text).event := by
  rw [parseRaw, normalize_append e.eventPart_no_cr, normalize_eq_self hr, parseSseFrame,
    foldl_eventPart_append, split_eq_singleton hn, foldl_cons, foldl_nil]

theorem received_of_typed :
    Fields.event { e.typed with dataLine := some e.dataLine } = some e.received := by
  obtain ⟨members, hobject⟩ := Json.object_of_get e.token
  have hcursor : cursorOf e.data = e.pagingToken := by rw [cursorOf, e.token]
  simp only [Fields.event, bind_eq_bind, bind_some, e.parsed]
  rw [if_pos (by rw [hobject]; rfl), hcursor]
  rfl

theorem parseRaw_body : parseRaw (e.eventPart ++ e.dataPart) = some e.received := by
  obtain ⟨hn, hr⟩ := e.dataPart_unbroken
  rw [parseRaw_eventPart_append e hn hr, SentEvent.dataPart, readLine_data]
  exact received_of_typed e

theorem eventsOf_frame_append (rest : List Char) :
    eventsOf (e.frame .lf ++ rest) = e.received :: eventsOf rest := by
  obtain ⟨hn, -⟩ := e.dataPart_unbroken
  have hlast : (e.eventPart ++ e.dataPart).getLast? ≠ some '\n' := by
    rw [getLast?_append_of_ne_nil _ (by simp [SentEvent.dataPart])]
    exact fun h => hn (mem_of_getLast? h)
  rw [e.frame_lf, append_assoc]
  show eventsOf (e.eventPart ++ e.dataPart ++ '\n' :: '\n' :: rest) = _
  rw [eventsOf, splitDoubled_whole_append (whole_eventPart_line e hn) hlast,
    filterMap_cons_some (parseRaw_body e), eventsOf]

theorem eventsOf_stream_lf (events : List SentEvent) :
    eventsOf (stream .lf events) = events.map SentEvent.received := by
  induction events with
  | nil => rfl
  | cons e events ih =>
    rw [stream, flatMap_cons, eventsOf_frame_append, map_cons]
    exact congrArg _ ih

/-! ## A text cut short -/

variable {e}

theorem readLine_dataLine {line : List Char} (h : ¬ "data:".toList <+: line) :
    (readLine fields line).dataLine = fields.dataLine := by
  rw [readLine]
  split_ifs
  · rfl
  · rfl
  · rfl

theorem event_eq_none {lines : List Char} (hlines : fields.dataLine = some lines)
    (hparse : parse (trimBy isJsSpace lines) = none) : fields.event = none := by
  simp only [Fields.event, hlines, bind_eq_bind, bind_some, hparse, bind_none]

theorem event_of_no_data (h : fields.dataLine = none) : fields.event = none := by
  simp only [Fields.event, h, bind_eq_bind, bind_none]

theorem SentEvent.opens (e : SentEvent) :
    ∃ rest, skipBlank (trimBy isJsSpace e.dataLine) = '{' :: rest := by
  obtain ⟨members, hobject⟩ := Json.object_of_get e.token
  exact skipBlank_of_parse_object (hobject ▸ e.parsed)

/-- The beginning of an event's data is no data or the same data. -/
theorem parse_beginning {d : List Char} {v : Json} (hd : d <+: e.dataLine)
    (hparse : parse (trimBy isJsSpace d) = some v) : v = e.data := by
  obtain ⟨b, hb⟩ := hd
  obtain ⟨rest, hskip⟩ := e.opens
  have hblank : skipBlank (trimBy isJsSpace d) ≠ [] := skipBlank_ne_nil_of_parse hparse
  have hne : trimBy isJsSpace d ≠ [] := fun hnil => hblank (by rw [hnil]; rfl)
  obtain ⟨r, htrim, -⟩ := trimBy_append hne b
  rw [hb] at htrim
  obtain ⟨c, rest', hhead⟩ := exists_cons_of_ne_nil hblank
  have hsame := skipBlank_append hhead r
  rw [← htrim, hskip] at hsame
  cases hsame
  exact parse_eq_of_append hhead hparse (htrim ▸ e.parsed)

theorem event_beginning {d : List Char} (hd : d <+: e.dataLine) :
    Fields.event { e.typed with dataLine := some d } = none ∨
      Fields.event { e.typed with dataLine := some d } = some e.received := by
  cases hparse : parse (trimBy isJsSpace d) with
  | none => exact .inl (event_eq_none rfl hparse)
  | some v =>
    right
    rw [← received_of_typed]
    obtain rfl := parse_beginning hd hparse
    simp only [Fields.event, bind_eq_bind, bind_some, hparse, e.parsed]

/-- What the first lines of a frame and the beginning of the next are read
as. -/
theorem parseRaw_cut {q : List Char} (hq : q <+: e.dataPart) :
    parseRaw (e.eventPart ++ q) = none ∨ parseRaw (e.eventPart ++ q) = some e.received := by
  obtain ⟨hn, hr⟩ := e.dataPart_unbroken
  rw [parseRaw_eventPart_append e (fun h => hn (hq.subset h)) fun h => hr (hq.subset h)]
  by_cases hdata : "data:".toList <+: q
  · obtain ⟨d, rfl⟩ := hdata
    exact event_beginning ((prefix_append_right_inj _).mp hq)
  · exact .inl (event_of_no_data (readLine_dataLine hdata))

theorem parseRaw_eventPart_cut {p : List Char} (hp : p <+: e.eventPart) (hne : p ≠ e.eventPart) :
    '\n' ∉ p ∧ parseRaw p = none := by
  unfold SentEvent.eventPart at hp hne
  cases hline : e.eventLine with
  | none =>
    rw [hline] at hp hne
    exact absurd (prefix_nil.mp hp) hne
  | some line =>
    rw [hline] at hp hne
    obtain ⟨hn, hr⟩ := e.event_unbroken line hline
    have hp' : p <+: "event:".toList ++ line := (prefix_concat_iff.mp hp).resolve_left hne
    have hpn : '\n' ∉ p := fun h => by simpa [hn] using hp'.subset h
    have hpr : '\r' ∉ p := fun h => by simpa [hr] using hp'.subset h
    refine ⟨hpn, ?_⟩
    rw [parseRaw, normalize_eq_self hpr, parseSseFrame, split_eq_singleton hpn]
    refine event_of_no_data (readLine_dataLine fun hdata => ?_)
    have := hdata.trans hp'
    simp at this

/-- A frame cut anywhere is read as its event or as nothing. -/
theorem eventsOf_frame_cut {p : List Char} (hp : p <+: e.frame .lf) :
    eventsOf p = [] ∨ eventsOf p = [e.received] := by
  have hofRaw : ∀ {p}, Whole '\n' p → parseRaw p = none ∨ parseRaw p = some e.received →
      eventsOf p = [] ∨ eventsOf p = [e.received] := by
    intro p hwhole hraw
    rw [eventsOf_whole hwhole]
    rcases hraw with hraw | hraw
    · exact .inl (by rw [hraw]; rfl)
    · exact .inr (by rw [hraw]; rfl)
  obtain ⟨hn, hr⟩ := e.dataPart_unbroken
  have hframe : e.frame .lf = e.eventPart ++ e.dataPart ++ ['\n'] ++ ['\n'] := by
    rw [e.frame_lf, append_assoc _ ['\n']]
    rfl
  rw [hframe] at hp
  rcases prefix_concat_iff.mp hp with hp | hp
  · right
    rw [hp, ← hframe]
    exact (append_nil (e.frame .lf)) ▸ eventsOf_frame_append e []
  rcases prefix_concat_iff.mp hp with rfl | hp
  · -- the empty line is missing its line feed
    rw [append_assoc]
    refine hofRaw (whole_eventPart_append e (whole_append hn rfl (by simp)) ?_) (.inr ?_)
    · simp [SentEvent.dataPart]
    · rw [parseRaw, normalize_append e.eventPart_no_cr, normalize_append hr]
      rw [parseSseFrame, foldl_eventPart_append, show normalize ['\n'] = '\n' :: [] from rfl,
        split_append hn, foldl_cons, SentEvent.dataPart, readLine_data]
      exact received_of_typed e
  rcases prefix_or_prefix_of_prefix hp (prefix_append _ _) with hevent | ⟨q, rfl⟩
  · by_cases hall : p = e.eventPart
    · subst hall
      have hnil := parseRaw_cut (e := e) nil_prefix
      rw [append_nil] at hnil
      refine hofRaw ?_ hnil
      exact (append_nil e.eventPart) ▸ whole_eventPart_line e not_mem_nil
    · obtain ⟨hpn, hraw⟩ := parseRaw_eventPart_cut hevent hall
      exact hofRaw (whole_of_not_mem hpn) (.inl hraw)
  · have hq := (prefix_append_right_inj _).mp hp
    exact hofRaw (whole_eventPart_line e fun h => hn (hq.subset h)) (parseRaw_cut hq)

/-- A text cut anywhere has the events of its beginning. -/
theorem eventsOf_stream_cut {p : List Char} (hp : p <+: stream .lf events) :
    eventsOf p <+: events.map SentEvent.received := by
  induction events generalizing p with
  | nil =>
    rw [prefix_nil.mp hp]
    exact prefix_rfl
  | cons e events ih =>
    rcases prefix_or_prefix_of_prefix hp (prefix_append _ _) with hframe | ⟨q, rfl⟩
    · rcases eventsOf_frame_cut hframe with hnone | hone
      · rw [hnone]
        exact nil_prefix
      · rw [hone]
        exact cons_prefix_cons.mpr ⟨rfl, nil_prefix⟩
    · rw [eventsOf_frame_append]
      exact cons_prefix_cons.mpr ⟨rfl, ih ((prefix_append_right_inj _).mp hp)⟩

/-! ## Frames with carriage returns -/

/-- The lines of all frames. -/
def allLines (events : List SentEvent) : List (List Char) := events.flatMap fun e => e.lines ++ [[]]

theorem stream_eq (lineEnd : LineEnd) (events : List SentEvent) :
    stream lineEnd events = (allLines events).flatMap (· ++ lineEnd.chars) := by
  rw [allLines, flatMap_assoc]
  rfl

theorem SentEvent.lines_unbroken (e : SentEvent) : ∀ line ∈ e.lines, '\n' ∉ line ∧ '\r' ∉ line := by
  intro line hline
  rcases mem_append.mp hline with hevent | hdata
  · obtain ⟨text, htext, rfl⟩ := map_eq_some_iff.mp (mem_toList.mp hevent)
    obtain ⟨hn, hr⟩ := e.event_unbroken text htext
    simp [hn, hr]
  · rw [mem_singleton.mp hdata]
    exact e.dataPart_unbroken

theorem allLines_unbroken (events : List SentEvent) :
    ∀ line ∈ allLines events, '\n' ∉ line ∧ '\r' ∉ line := by
  intro line hline
  obtain ⟨e, -, he⟩ := mem_flatMap.mp hline
  rcases mem_append.mp he with he | hempty
  · exact e.lines_unbroken line he
  · rw [mem_singleton.mp hempty]
    exact ⟨not_mem_nil, not_mem_nil⟩

/-- No two line feeds in a row. -/
theorem whole_crlf {lines : List (List Char)} (h : ∀ line ∈ lines, '\n' ∉ line) :
    Whole '\n' (lines.flatMap (· ++ LineEnd.crlf.chars)) := by
  induction lines with
  | nil => rfl
  | cons line lines ih =>
    obtain ⟨hline, hlines⟩ := forall_mem_cons.mp h
    rw [flatMap_cons, LineEnd.chars, append_assoc]
    show Whole '\n' (line ++ ('\r' :: '\n' :: _))
    rw [append_cons]
    refine whole_append (by simp [hline]) (ih hlines) ?_
    cases lines with
    | nil => simp
    | cons next lines =>
      have hnext := h next (by simp)
      cases next with
      | nil => simp
      | cons c next =>
        rintro hhead
        obtain rfl : c = '\n' := Option.some.inj hhead
        exact hnext mem_cons_self

/-- The fields after the lines of an event. -/
theorem foldl_lines (e : SentEvent) (fields : Fields) :
    (e.lines ++ [[]]).foldl readLine fields
      = { eventType := (e.eventLine.map (trimBy isJsSpace)).getD fields.eventType
          dataLine := some (addData fields.dataLine e.dataLine) } := by
  rw [foldl_append, foldl_cons, foldl_nil, readLine_nil]
  unfold SentEvent.lines
  cases e.eventLine with
  | none => exact readLine_data fields e.dataLine
  | some text =>
    simp only [map_some, toList_some, singleton_append, foldl_cons,
      foldl_nil, readLine_event, readLine_data, getD_some]

/-- Further events add their data. -/
theorem foldl_allLines_dataLine (events : List SentEvent) {fields : Fields} {lines : List Char}
    (h : fields.dataLine = some lines) :
    ((allLines events).foldl readLine fields).dataLine
      = some (lines ++ events.flatMap fun e => '\n' :: e.dataLine) := by
  induction events generalizing fields lines with
  | nil => rw [flatMap_nil, append_nil]; exact h
  | cons e events ih =>
    rw [allLines, flatMap_cons, foldl_append, foldl_lines]
    rw [← allLines, ih rfl, flatMap_cons, h, addData, append_assoc]

theorem brace_mem_dataLine (e : SentEvent) : '{' ∈ e.dataLine := by
  obtain ⟨rest, hskip⟩ := e.opens
  have htrim : '{' ∈ trimBy isJsSpace e.dataLine :=
    (dropWhile_suffix isBlank).subset (by rw [← skipBlank, hskip]; exact mem_cons_self)
  exact (dropWhile_suffix isJsSpace).subset (( rdropWhile_prefix _ _).subset htrim)

/-- Two events or more have no data that can be read. -/
theorem parse_joined_eq_none (e : SentEvent) (hevents : events ≠ []) :
    parse (trimBy isJsSpace (e.dataLine ++ events.flatMap fun e => '\n' :: e.dataLine))
      = none := by
  obtain ⟨rest, hskip⟩ := e.opens
  have hne : trimBy isJsSpace e.dataLine ≠ [] := by
    intro hnil
    rw [hnil] at hskip
    cases hskip
  obtain ⟨r, htrim, hr⟩ := trimBy_append hne (events.flatMap fun e => '\n' :: e.dataLine)
  rw [htrim]
  refine parse_append_eq_none hskip e.parsed fun hblank => ?_
  obtain ⟨next, others, rfl⟩ := exists_cons_of_ne_nil hevents
  have hbrace : '{' ∈ r := by
    refine hr '{' ?_ (by decide)
    exact mem_append_left _ (mem_cons_of_mem _ (brace_mem_dataLine next))
  have := dropWhile_eq_nil_iff.mp hblank '{' hbrace
  exact absurd this (by decide)

theorem eventsOf_stream_crlf (events : List SentEvent) :
    eventsOf (stream .crlf events)
      = if events.length ≤ 1 then events.map SentEvent.received else [] := by
  have hunbroken := allLines_unbroken events
  have hwhole : Whole '\n' (stream .crlf events) := by
    rw [stream_eq]
    exact whole_crlf fun line hline => (hunbroken line hline).1
  have hparse : parseRaw (stream .crlf events)
      = ((allLines events).foldl readLine {}).event := by
    rw [parseRaw, stream_eq, normalize_lines fun line hline => (hunbroken line hline).2,
      parseSseFrame, split_flatMap fun line hline => (hunbroken line hline).1,
      foldl_append, foldl_cons, foldl_nil, readLine_nil]
  rw [eventsOf_whole hwhole, hparse]
  cases events with
  | nil => rfl
  | cons e events =>
    rw [allLines, flatMap_cons, foldl_append, foldl_lines, ← allLines]
    cases events with
    | nil =>
      show (Fields.event { e.typed with dataLine := some e.dataLine }).toList = _
      rw [received_of_typed]
      rfl
    | cons next events =>
      rw [event_eq_none (foldl_allLines_dataLine (next :: events) rfl)
        (parse_joined_eq_none e (cons_ne_nil next events)), if_neg (by simp)]
      rfl

/-! ## Every event once, in order -/

/-- A handler that resolves, and what it was called with. -/
def record (event : HorizonSseEvent) (calls : List HorizonSseEvent) : List HorizonSseEvent × Bool :=
  (calls ++ [event], true)

theorem deliverAll_record (events calls : List HorizonSseEvent) :
    deliverAll record events calls = (calls ++ events, true) := by
  induction events generalizing calls with
  | nil => rw [deliverAll, append_nil]
  | cons event events ih =>
    show deliverAll record events (calls ++ [event]) = _
    rw [ih, append_assoc, singleton_append]

/-- However the text is cut, the handler is called once per event and in
order exactly if the lines end with LF or there is at most one event. -/
theorem onEvent_calls_iff (lineEnd : LineEnd) (events : List SentEvent)
    (chunks : List (List Char)) (hchunks : chunks.flatten = stream lineEnd events) :
    (runSseConnection record (chunks.map Read.chunk) []).1 = events.map SentEvent.received ↔
      lineEnd = .lf ∨ events.length ≤ 1 := by
  have hcalls : (runSseConnection record (chunks.map Read.chunk ++ []) []).1
      = (deliverAll record (eventsOf chunks.flatten) []).1 :=
    runSseConnection_eq chunks .closed []
  rw [append_nil, hchunks, deliverAll_record, nil_append] at hcalls
  rw [hcalls]
  cases lineEnd with
  | lf => simp [eventsOf_stream_lf]
  | crlf =>
    rw [eventsOf_stream_crlf]
    by_cases hone : events.length ≤ 1
    · simp [hone]
    · rw [if_neg hone]
      constructor
      · intro hnil
        rw [map_eq_nil_iff.mp hnil.symm] at hone
        exact absurd (Nat.zero_le 1) hone
      · rintro (hlf | hle)
        · cases hlf
        · exact absurd hle hone

/-- An event with a number for its token. -/
def payment (token : Char) (htoken : token = '1' ∨ token = '2') : SentEvent where
  eventLine := some " payment".toList
  dataLine := " \x7b\"paging_token\":\"".toList ++ [token] ++ "\"\x7d".toList
  data := .object [(units "paging_token", .string [token.toNat])]
  pagingToken := [token.toNat]
  event_unbroken := by decide
  data_unbroken := by rcases htoken with rfl | rfl <;> decide
  parsed := by rcases htoken with rfl | rfl <;> rfl
  token := by rcases htoken with rfl | rfl <;> rfl

def twoPayments : List SentEvent := [payment '1' (.inl rfl), payment '2' (.inr rfl)]

theorem twoPayments_called :
    (runSseConnection record ([(stream .lf twoPayments).take 30,
      (stream .lf twoPayments).drop 30].map Read.chunk) []).1
        = twoPayments.map SentEvent.received :=
  (onEvent_calls_iff .lf twoPayments _ (by
    rw [flatten_cons, flatten_cons, flatten_nil, append_nil, take_append_drop])).mpr (.inl rfl)

/-- With CR LF, both events are lost. -/
theorem twoPayments_crlf_lost :
    (runSseConnection record ([stream .crlf twoPayments].map Read.chunk) []).1.length = 0 ∧
      (twoPayments.map SentEvent.received).length = 2 := by
  decide +kernel

end ChronoPay.HorizonSse
