import ChronoPay.GraphqlCost

/-!
# GraphqlAppend — what a definition behind a query adds to its cost

For a query whose parentheses are closed the scan of `q ++ f` is that of
`q` and then that of `f` (`scan_append`), so what `f` adds is the sum of
its own fields, at the depth `q` ends at (`rejected_append_iff`).
-/

namespace ChronoPay.GraphqlCost

open List

open TextPieces (trimBy)

/-! ## Closed parentheses -/

/-- Every parenthesis of the text is closed, with `open` ones before it. -/
def closes : Nat → List Char → Bool
  | opened, [] => opened = 0
  | opened, c :: text =>
    if c = '(' then closes (opened + 1) text
    else if c = ')' then
      match opened with
      | 0 => false
      | opened + 1 => closes opened text
    else closes opened text

variable {s s' : Scan} {ch : Char} {text b g : List Char} {opened : Nat}

theorem closes_open (h : closes opened ('(' :: text) = true) : closes (opened + 1) text = true := h

theorem closes_close (h : closes opened (')' :: text) = true) :
    ∃ before, opened = before + 1 ∧ closes before text = true := by
  cases opened with
  | zero => cases h
  | succ before => exact ⟨before, rfl, h⟩

theorem closes_other (h : closes opened (ch :: text) = true) (hopen : ch ≠ '(') (hclose : ch ≠ ')') :
    closes opened text = true := by
  rw [closes.eq_def] at h
  dsimp only at h
  rwa [if_neg hopen, if_neg hclose] at h

/-- An open parenthesis that is closed has its match, whatever follows. -/
theorem findMatchingParen_of_closes (h : closes (opened + 1) text = true) :
    ∃ close < text.length, ∀ g, findMatchingParen (opened + 1) (text ++ g) = some close := by
  induction text generalizing opened with
  | nil => cases h
  | cons ch text ih =>
    simp only [cons_append, findMatchingParen]
    by_cases hopen : ch = '('
    · subst hopen
      obtain ⟨close, hlt, hclose⟩ := ih (closes_open h)
      exact ⟨close + 1, Nat.succ_lt_succ hlt, fun g => congrArg (Option.map (· + 1)) (hclose g)⟩
    · by_cases hclosed : ch = ')'
      · subst hclosed
        obtain ⟨before, hbefore, hrest⟩ := closes_close h
        obtain rfl : opened = before := by omega
        cases opened with
        | zero => exact ⟨0, Nat.succ_pos _, fun g => rfl⟩
        | succ opened =>
          obtain ⟨close, hlt, hclose⟩ := ih hrest
          refine ⟨close + 1, Nat.succ_lt_succ hlt, fun g => ?_⟩
          have hne : ¬ ((opened + 1 : Nat) : Int) + 1 - 1 = 0 := by omega
          rw [if_neg hopen, if_pos rfl, if_neg hne,
            show ((opened + 1 : Nat) : Int) + 1 - 1 = (opened : Int) + 1 by omega, hclose]
          rfl
      · obtain ⟨close, hlt, hclose⟩ := ih (closes_other h hopen hclosed)
        simp only [if_neg hopen, if_neg hclosed, hclose]
        exact ⟨close + 1, Nat.succ_lt_succ hlt, fun g => rfl⟩

/-- Outside of parentheses a text that goes on with one closes it. -/
theorem findMatchingParen_ahead (h : closes 0 text = true)
    (hhead : (text.dropWhile isJsSpace).head? = some '(') :
    ∃ close < text.length, ∀ g, findMatchingParen 0 (text ++ g) = some close := by
  induction text with
  | nil => cases hhead
  | cons ch text ih =>
    simp only [cons_append, findMatchingParen]
    by_cases hopen : ch = '('
    · subst hopen
      obtain ⟨close, hlt, hclose⟩ := findMatchingParen_of_closes (closes_open h)
      exact ⟨close + 1, Nat.succ_lt_succ hlt, fun g => congrArg (Option.map (· + 1)) (hclose g)⟩
    · have hspace : isJsSpace ch = true := by
        by_contra hspace
        rw [dropWhile_cons_of_neg hspace] at hhead
        exact hopen (Option.some.inj hhead)
      rw [dropWhile_cons_of_pos hspace] at hhead
      have hclosed : ch ≠ ')' := by
        rintro rfl
        exact absurd hspace (by decide)
      obtain ⟨close, hlt, hclose⟩ := ih (closes_other h hopen hclosed) hhead
      simp only [if_neg hopen, if_neg hclosed, hclose]
      exact ⟨close + 1, Nat.succ_lt_succ hlt, fun g => rfl⟩

/-! ## The scan of a text that goes on -/

theorem argsAhead_append {currentArgCount : Nat} (h : closes 0 (ch :: text) = true)
    (hfilled : (ch :: text).dropWhile isJsSpace ≠ []) (g : List Char) :
    argsAhead currentArgCount ch (text ++ g) = argsAhead currentArgCount ch text := by
  have hhead : ((ch :: (text ++ g)).dropWhile isJsSpace).head?
      = ((ch :: text).dropWhile isJsSpace).head? := by
    rw [← cons_append, TextPieces.dropWhile_append_of_ne_nil hfilled]
    exact head?_append_of_ne_nil _ hfilled
  rw [argsAhead, argsAhead, hhead]
  by_cases hparen : ((ch :: text).dropWhile isJsSpace).head? = some '('
  · rw [if_pos hparen, if_pos hparen]
    obtain ⟨close, hlt, hclose⟩ := findMatchingParen_ahead h hparen
    have hshort := hclose []
    rw [append_nil] at hshort
    rw [hshort, ← cons_append, hclose g]
    dsimp only
    rw [take_append_of_le_length]
    rw [length_cons] at hlt
    omega
  · rw [if_neg hparen, if_neg hparen]

theorem step_append (hs : s.inArgParens = opened) (h : closes opened (ch :: text) = true)
    (hfilled : (ch :: text).dropWhile isJsSpace ≠ []) (g : List Char) :
    s.step ch (text ++ g) = s.step ch text := by
  have hread : s.read ch (text ++ g) = s.read ch text := by
    rw [Scan.read, Scan.read]
    by_cases hparens : s.inArgParens > 0
    · rw [if_pos hparens, if_pos hparens]
    · -- only outside of parentheses the scan looks ahead
      obtain rfl : opened = 0 := by omega
      rw [Scan.endField, Scan.endField, argsAhead_append h hfilled g]
  rw [Scan.step, Scan.step, hread]

theorem endField_inArgParens : (s.endField ch text).inArgParens = s.inArgParens := by
  rw [Scan.endField]
  split
  · rfl
  · rfl

theorem step_inArgParens : (s.step ch text).inArgParens
    = if ch = '(' then s.inArgParens + 1 else if ch = ')' then s.inArgParens - 1
      else s.inArgParens := by
  change (s.read ch text).inArgParens = _
  rw [Scan.read]
  split
  · rfl
  · split
    · rfl
    · split
      · rfl
      · split
        · rfl
        · exact endField_inArgParens

/-- The count of parentheses goes along with the scan. -/
theorem closes_step (hs : s.inArgParens = opened) (h : closes opened (ch :: text) = true) :
    ∃ after : Nat, (s.step ch text).inArgParens = after ∧ closes after text = true := by
  rw [step_inArgParens, hs]
  by_cases hopen : ch = '('
  · subst hopen
    exact ⟨opened + 1, rfl, closes_open h⟩
  · by_cases hclose : ch = ')'
    · subst hclose
      obtain ⟨before, rfl, hbefore⟩ := closes_close h
      refine ⟨before, ?_, hbefore⟩
      rw [if_neg (by decide), if_pos rfl]
      omega
    · rw [if_neg hopen, if_neg hclose]
      exact ⟨opened, rfl, closes_other h hopen hclose⟩

/-- The last character of a document is a brace. -/
def EndsInBrace (text : List Char) : Prop := text.getLast? = some '}'

theorem EndsInBrace.filled (h : EndsInBrace text) : text.dropWhile isJsSpace ≠ [] := by
  intro hnil
  have hspace := dropWhile_eq_nil_iff.mp hnil '}' (mem_of_getLast? h)
  exact absurd hspace (by decide)

theorem EndsInBrace.tail (h : EndsInBrace (ch :: text)) (hne : text ≠ []) : EndsInBrace text := by
  rwa [EndsInBrace, getLast?_cons_of_ne_nil hne] at h

/-- Nothing is pending. -/
structure AtRest (s : Scan) : Prop where
  field : s.currentField = []
  parens : s.inArgParens = 0
  args : s.currentArgCount = 0

/-- Arguments are counted for a pending name only. -/
def Tidy (s : Scan) : Prop := s.currentField = [] → s.currentArgCount = 0

theorem Tidy.endField (h : Tidy s) : Tidy (s.endField ch text) := by
  rw [Scan.endField]
  split
  · exact h
  · exact fun _ => rfl

theorem Tidy.step (h : Tidy s) : Tidy (s.step ch text) := by
  change Tidy (s.read ch text)
  rw [Scan.read]
  split
  · exact h
  · split
    · intro hfield
      rw [if_neg fun hand => hand.2 hfield]
      exact h hfield
    · split
      · exact h
      · split
        · intro hfield
          exact absurd hfield (by simp)
        · exact h.endField

theorem endField_currentField : (s.endField ch text).currentField = [] := by
  rw [Scan.endField]
  split
  · assumption
  · rfl

/-- **A closed text and what follows it** are scanned one after the other,
and nothing is pending in between. -/
theorem scan_append (hs : s.inArgParens = opened) (h : closes opened b = true)
    (hlast : EndsInBrace b) (htidy : Tidy s) (g : List Char) :
    scan s (b ++ g) = scan (scan s b) g ∧ AtRest (scan s b) := by
  induction b generalizing s opened with
  | nil => cases hlast
  | cons ch text ih =>
    rw [cons_append, scan, scan, step_append hs h hlast.filled g]
    obtain ⟨after, hafter, hcloses⟩ := closes_step hs h
    by_cases hne : text = []
    · subst hne
      obtain rfl : ch = '}' := Option.some.inj hlast
      obtain rfl : opened = 0 := of_decide_eq_true (closes_other h (by decide) (by decide))
      have hfield : (s.step '}' []).currentField = [] := by
        change (s.read '}' []).currentField = []
        rw [Scan.read, if_neg (by decide), if_neg (by decide), if_neg (by omega), if_neg (by decide)]
        exact endField_currentField
      refine ⟨rfl, hfield, ?_, htidy.step hfield⟩
      rw [scan, step_inArgParens]
      exact hs
    · exact ih hafter hcloses (hlast.tail hne) htidy.step

/-! ## Fields in front -/

theorem argContent_cons (h : ch ≠ '(') (seen : List Char) :
    argContent (ch :: seen) = (argContent seen).map (· ++ [ch]) := by
  rw [argContent, argContent]
  by_cases hseen : '(' ∈ seen
  · rw [if_pos (mem_cons_of_mem _ hseen), if_pos hseen, takeWhile_cons,
      if_pos (decide_eq_true h), reverse_cons, Option.map_some]
  · rw [if_neg hseen, if_neg]
    · rfl
    · intro hmem
      exact hseen ((mem_cons.mp hmem).resolve_left h.symm)

/-- `s` is `s'` with fields in front of its own, and both see the same open
arguments. -/
structure Ahead (front : List ParsedField) (s s' : Scan) : Prop where
  same : s = { s' with seen := s.seen, fields := front ++ s'.fields }
  content : 0 < s'.inArgParens → argContent s.seen = argContent s'.seen

variable {front : List ParsedField}

theorem endField_ahead (s' : Scan) (seen : List Char) (ch : Char) (text : List Char) :
    Scan.endField { s' with seen, fields := front ++ s'.fields } ch text
      = { s'.endField ch text with seen, fields := front ++ (s'.endField ch text).fields } := by
  rw [Scan.endField, Scan.endField]
  by_cases hfield : s'.currentField = []
  · rw [if_pos hfield, if_pos hfield]
  · rw [if_neg hfield, if_neg hfield]
    by_cases hkeyword : s'.currentField ∈ keywords
    · simp only [if_pos hkeyword]
    · simp only [if_neg hkeyword, append_assoc]

theorem read_ahead {s' : Scan} {seen : List Char}
    (hcontent : 0 < s'.inArgParens → argContent seen = argContent s'.seen) (ch : Char)
    (text : List Char) :
    Scan.read { s' with seen, fields := front ++ s'.fields } ch text
      = { s'.read ch text with seen, fields := front ++ (s'.read ch text).fields } := by
  rw [Scan.read, Scan.read]
  by_cases hopen : ch = '('
  · rw [if_pos hopen, if_pos hopen]
  · rw [if_neg hopen, if_neg hopen]
    by_cases hclose : ch = ')'
    · rw [if_pos hclose, if_pos hclose]
      by_cases hlast : s'.inArgParens - 1 = 0 ∧ s'.currentField ≠ []
      · have hsame := hcontent (by omega)
        simp only [hsame]
      · simp only [if_neg hlast]
    · rw [if_neg hclose, if_neg hclose, endField_ahead]
      by_cases hparens : s'.inArgParens > 0
      · rw [if_pos hparens, if_pos hparens]
      · rw [if_neg hparens, if_neg hparens]
        by_cases hname : isNameChar ch
        · rw [if_pos hname, if_pos hname]
        · rw [if_neg hname, if_neg hname]

theorem Ahead.step (h : Ahead front s s') (ch : Char) (text : List Char) :
    Ahead front (s.step ch text) (s'.step ch text) := by
  have hread : s.read ch text
      = { s'.read ch text with seen := s.seen, fields := front ++ (s'.read ch text).fields } := by
    rw [h.same]
    exact read_ahead h.content ch text
  refine ⟨?_, ?_⟩
  · rw [Scan.step, Scan.step, hread]
  · intro hpos
    change argContent (ch :: s.seen) = argContent (ch :: s'.seen)
    by_cases hopen : ch = '('
    · subst hopen
      rfl
    · have hbefore : 0 < s'.inArgParens := by
        rw [step_inArgParens, if_neg hopen] at hpos
        split at hpos
        · omega
        · exact hpos
      rw [argContent_cons hopen, argContent_cons hopen, h.content hbefore]

theorem Ahead.scan (h : Ahead front s s') (g : List Char) :
    Ahead front (GraphqlCost.scan s g) (GraphqlCost.scan s' g) := by
  induction g generalizing s s' with
  | nil => exact h
  | cons ch text ih => exact ih (h.step ch text)

/-- A scan at rest goes on as one from the beginning, at its depth. -/
theorem fields_scan_atRest (h : AtRest s) (g : List Char) :
    (scan s g).fields = s.fields ++ (scan { depth := s.depth } g).fields := by
  have hahead : Ahead s.fields s { depth := s.depth } := by
    refine ⟨?_, fun hpos => absurd hpos (lt_irrefl _)⟩
    obtain ⟨depth, currentField, inArgParens, currentArgCount, seen, fields⟩ := s
    obtain ⟨rfl, rfl, rfl⟩ := h
    rw [append_nil]
  rw [(hahead.scan g).same]

/-! ## The operation -/

variable {q f : List Char}

/-- Whether a line comment is open behind the text. -/
def lineOpen : Bool → List Char → Bool
  | opened, [] => opened
  | true, c :: text => lineOpen (!isLineTerminator c) text
  | false, c :: text => lineOpen (c = '#') text

theorem stripLineComments_append (opened : Bool) (t u : List Char) :
    stripLineComments opened (t ++ u)
      = stripLineComments opened t ++ stripLineComments (lineOpen opened t) u := by
  fun_induction stripLineComments opened t with
  | case1 opened => cases opened <;> rfl
  | case2 c text hend ih | case3 c text hend ih => simp [stripLineComments, lineOpen, hend, ih]
  | case4 text ih => simp [stripLineComments, lineOpen, ih]
  | case5 c text hhash ih => simp [stripLineComments, lineOpen, hhash, ih]

theorem stripLineComments_sublist (opened : Bool) (t : List Char) :
    (stripLineComments opened t).Sublist t := by
  fun_induction stripLineComments opened t with
  | case1 => exact .slnil
  | case2 c text hend ih => exact ih.cons_cons c
  | case3 c text hend ih => exact ih.cons c
  | case4 text ih => exact ih.cons '#'
  | case5 c text hhash ih => exact ih.cons_cons c

theorem stripBlockComments_sublist (opened : Bool) (t : List Char) :
    (stripBlockComments opened t).Sublist t := by
  fun_induction stripBlockComments opened t with
  | case1 => exact .slnil
  | case2 text ih => exact (ih.cons '/').cons '*'
  | case3 d text hne ih => exact ih.cons d
  | case4 text hcloses ih => exact (ih.cons '*').cons '/'
  | case5 text hcloses ih => exact ih.cons_cons '/'
  | case6 d text hne ih => exact ih.cons_cons d

theorem lineOpen_of_not_mem {t : List Char} (h : '#' ∉ t) : lineOpen false t = false := by
  induction t with
  | nil => rfl
  | cons c t ih =>
    have hc : c ≠ '#' := fun hc => h (hc ▸ mem_cons_self)
    rw [lineOpen, decide_eq_false hc]
    exact ih fun hmem => h (mem_cons_of_mem _ hmem)

/-- A brace outside of comments is one of the trimmed text, too. -/
theorem brace_mem_stripLineComments_trimBy (h : '{' ∈ stripLineComments false q) :
    '{' ∈ stripLineComments false (trimBy isJsSpace q) := by
  have hlead : ∀ c ∈ q.takeWhile isJsSpace, isJsSpace c := fun c hc => mem_takeWhile_imp hc
  have hq : q = q.takeWhile isJsSpace ++
      (trimBy isJsSpace q ++ (q.dropWhile isJsSpace).rtakeWhile isJsSpace) := by
    rw [trimBy, rdropWhile_append_rtakeWhile, takeWhile_append_dropWhile]
  have hhash : '#' ∉ q.takeWhile isJsSpace := fun hc => absurd (hlead _ hc) (by decide)
  rw [hq, stripLineComments_append, stripLineComments_append, lineOpen_of_not_mem hhash] at h
  rcases mem_append.mp h with hmem | hmem
  · exact absurd (hlead _ ((stripLineComments_sublist _ _).subset hmem)) (by decide)
  · refine (mem_append.mp hmem).resolve_right fun hmem => ?_
    have htrail := (stripLineComments_sublist _ _).subset hmem
    exact absurd (mem_rtakeWhile_imp htrail) (by decide)

theorem brace_mem_squeeze {blank : Bool} {t : List Char} (h : '{' ∈ t) : '{' ∈ squeeze blank t := by
  induction t generalizing blank with
  | nil => cases h
  | cons c t ih =>
    rw [squeeze]
    rcases mem_cons.mp h with rfl | hmem
    · rw [if_neg (by decide)]
      exact mem_cons_self
    · split
      · split
        · exact ih hmem
        · exact mem_cons_of_mem _ (ih hmem)
      · exact mem_cons_of_mem _ (ih hmem)

theorem squeeze_append (blank : Bool) (t u : List Char) :
    ∃ blank', squeeze blank (t ++ u) = squeeze blank t ++ squeeze blank' u := by
  induction t generalizing blank with
  | nil => exact ⟨blank, by cases blank <;> rfl⟩
  | cons c t ih =>
    rw [cons_append, squeeze, squeeze]
    obtain ⟨afterBlank, hblank⟩ := ih true
    obtain ⟨afterOther, hother⟩ := ih false
    by_cases hspace : isJsSpace c
    · rw [if_pos hspace, if_pos hspace, hblank]
      refine ⟨afterBlank, ?_⟩
      cases blank <;> rfl
    · rw [if_neg hspace, if_neg hspace, hother]
      exact ⟨afterOther, rfl⟩

/-- A brace ends every word. -/
theorem startsWord_append {word t : List Char} (hword : '{' ∉ word) (h : '{' ∈ t)
    (u : List Char) : startsWord word (t ++ u) = startsWord word t := by
  induction t generalizing word with
  | nil => cases h
  | cons c t ih =>
    cases word with
    | nil => rfl
    | cons k word =>
      rw [cons_append, startsWord, startsWord]
      rcases mem_cons.mp h with rfl | hmem
      · have hk : ('{'.toLower = k) = False := eq_false fun hk => hword (hk ▸ mem_cons_self)
        simp only [hk, decide_false, Bool.false_and]
      · rw [ih (fun hmem => hword (mem_cons_of_mem _ hmem)) hmem]

theorem extractOperationType_append (h : '{' ∈ cleaned q) (f : List Char) :
    extractOperationType (q ++ f) = extractOperationType q := by
  have hdropped := ( rdropWhile_prefix _ _).mem h
  have hline : '{' ∈ stripLineComments false (trimBy isJsSpace q) :=
    brace_mem_stripLineComments_trimBy
      ((stripBlockComments_sublist _ _).subset ((dropWhile_sublist _).mem hdropped))
  have htrim : trimBy isJsSpace q ≠ [] :=
    ne_nil_of_mem ((stripLineComments_sublist _ _).subset hline)
  obtain ⟨r, hr, -⟩ := TextPieces.trimBy_append htrim f
  obtain ⟨blank, hblank⟩ := squeeze_append false (stripLineComments false (trimBy isJsSpace q))
    (stripLineComments (lineOpen false (trimBy isJsSpace q)) r)
  have hbrace : '{' ∈ squeeze false (stripLineComments false (trimBy isJsSpace q)) :=
    brace_mem_squeeze hline
  rw [extractOperationType, extractOperationType, hr, stripLineComments_append, hblank]
  rw [startsWord_append (by decide) hbrace, startsWord_append (by decide) hbrace]

/-! ## Costs in halves -/

/-- A whole number of halves. -/
def Halves (x : ℚ) : Prop := ∃ k : ℤ, x = k / 2

theorem Halves.round2_eq {x : ℚ} (h : Halves x) : round2 x = x := by
  obtain ⟨k, rfl⟩ := h
  have hfloor : ⌊(k : ℚ) / 2 * 100 + 1 / 2⌋ = 50 * k := by
    rw [Int.floor_eq_iff]
    push_cast
    constructor
    · linarith
    · linarith
  rw [round2, hfloor]
  push_cast
  ring

theorem Halves.add {x y : ℚ} (hx : Halves x) (hy : Halves y) : Halves (x + y) := by
  obtain ⟨j, rfl⟩ := hx
  obtain ⟨k, rfl⟩ := hy
  refine ⟨j + k, ?_⟩
  push_cast
  ring

theorem Halves.mul_nat {x : ℚ} (hx : Halves x) (n : ℕ) : Halves (x * n) := by
  obtain ⟨k, rfl⟩ := hx
  refine ⟨k * n, ?_⟩
  push_cast
  ring

/-- A cost before it is rounded. -/
def fieldCost (field : ParsedField) : ℚ :=
  (3 * field.depth - 1) / 2 * ((if field.hasSubfields then 2 else 1 : ℕ) : ℚ)
    * ((if field.isList then 3 else 1 : ℕ) : ℚ) + field.argCount

theorem halves_fieldCost (field : ParsedField) : Halves (fieldCost field) := by
  have hbase : Halves ((3 * (field.depth : ℚ) - 1) / 2) := ⟨3 * field.depth - 1, by push_cast; rfl⟩
  have hargs : Halves (field.argCount : ℚ) := ⟨2 * field.argCount, by push_cast; ring⟩
  exact ((hbase.mul_nat _).mul_nat _).add hargs

/-- Rounding leaves the cost of a field as it is. -/
theorem computeFieldCost_eq (field : ParsedField) : computeFieldCost field = fieldCost field := by
  have hcost : computeFieldCost field = round2 (fieldCost field) := by
    rw [computeFieldCost, fieldCost, fieldBaseCost, depthPenalty, objectFieldMultiplier,
      listFanoutMultiplier]
    congr 2
    cases field.hasSubfields <;> cases field.isList <;> simp <;> ring
  rw [hcost, (halves_fieldCost field).round2_eq]

/-- Below the first brace a field costs at least 1. -/
theorem one_le_computeFieldCost {field : ParsedField} (h : 1 ≤ field.depth) :
    1 ≤ computeFieldCost field := by
  have hdepth : (1 : ℚ) ≤ (3 * field.depth - 1) / 2 := by
    have hcast : (1 : ℚ) ≤ field.depth := by exact_mod_cast h
    linarith
  have hfactor : ∀ (flag : Bool) (n : ℕ), 1 ≤ n → (1 : ℚ) ≤ ((if flag then n else 1 : ℕ) : ℚ) := by
    intro flag n hn
    have : 1 ≤ if flag then n else 1 := by split <;> omega
    exact_mod_cast this
  have hobject := one_le_mul_of_one_le_of_one_le hdepth (hfactor field.hasSubfields 2 (by omega))
  have hlist := one_le_mul_of_one_le_of_one_le hobject (hfactor field.isList 3 (by omega))
  rw [computeFieldCost_eq, fieldCost]
  linarith

theorem sumCosts_eq_sum (fields : List ParsedField) :
    sumCosts fields = (fields.map computeFieldCost).sum := by
  rw [sumCosts, sum_eq_foldl, foldl_map]

theorem sumCosts_cons (field : ParsedField) (fields : List ParsedField) :
    sumCosts (field :: fields) = computeFieldCost field + sumCosts fields := by
  simp only [sumCosts_eq_sum, map_cons, sum_cons]

theorem halves_sumCosts (fields : List ParsedField) : Halves (sumCosts fields) := by
  induction fields with
  | nil => exact ⟨0, by norm_num [sumCosts]⟩
  | cons field fields ih =>
    rw [sumCosts_cons, computeFieldCost_eq]
    exact (halves_fieldCost field).add ih

theorem totalCost_eq (q : List Char) :
    (estimateQueryCost q).totalCost = sumCosts (scan {} (bodyOf q)).fields :=
  (halves_sumCosts _).round2_eq

theorem sumCosts_nonneg {fields : List ParsedField} (h : ∀ field ∈ fields, 1 ≤ field.depth) :
    0 ≤ sumCosts fields := by
  induction fields with
  | nil => exact le_refl _
  | cons field fields ih =>
    obtain ⟨hfield, hfields⟩ := forall_mem_cons.mp h
    have hcost := one_le_computeFieldCost hfield
    have hrest := ih hfields
    rw [sumCosts_cons]
    linarith

/-! ## A definition behind a query -/

/-- The query closes its parentheses, ends in a brace, and no comment runs
from it into what follows. -/
structure Settled (q f : List Char) : Prop where
  kept : cleaned q <+: cleaned (q ++ f)
  brace : '{' ∈ cleaned q
  closed : closes 0 (bodyOf q) = true
  last : EndsInBrace (cleaned q)

/-- The fields found in `f`, at the depth `q` ends at. -/
def appended (q f : List Char) : List ParsedField :=
  (scan { depth := (scan {} (bodyOf q)).depth } ((cleaned (q ++ f)).drop (cleaned q).length)).fields

theorem bodyOf_ne_nil (h : '{' ∈ cleaned q) : bodyOf q ≠ [] := by
  intro hnil
  have hnone := dropWhile_eq_nil_iff.mp hnil '{' h
  exact absurd hnone (by decide)

theorem Settled.bodyOf_append (h : Settled q f) :
    bodyOf (q ++ f) = bodyOf q ++ (cleaned (q ++ f)).drop (cleaned q).length := by
  obtain ⟨g, hg⟩ := h.kept
  rw [bodyOf, ← hg, drop_left]
  exact TextPieces.dropWhile_append_of_ne_nil (bodyOf_ne_nil h.brace)

theorem Settled.endsInBrace (h : Settled q f) : EndsInBrace (bodyOf q) := by
  have hne := bodyOf_ne_nil h.brace
  have hsplit : cleaned q = (cleaned q).takeWhile (· ≠ '{') ++ bodyOf q :=
    takeWhile_append_dropWhile.symm
  have hlast := h.last
  rwa [EndsInBrace, hsplit, getLast?_append_of_ne_nil _ hne] at hlast

/-- The scan finds the fields of `q` and then those of `f`. -/
theorem Settled.fields_eq (h : Settled q f) :
    (scan {} (bodyOf (q ++ f))).fields = (scan {} (bodyOf q)).fields ++ appended q f := by
  have hparens : ({} : Scan).inArgParens = (0 : ℕ) := rfl
  obtain ⟨happend, hrest⟩ := scan_append hparens h.closed h.endsInBrace (fun _ => rfl)
    ((cleaned (q ++ f)).drop (cleaned q).length)
  rw [h.bodyOf_append, happend, fields_scan_atRest hrest]
  rfl

/-- The budget is exceeded. -/
def Rejected (q : List Char) (budget : CostBudget) : Prop :=
  ∃ err, validateQueryCost q budget = .error err

theorem rejected_iff {budget : CostBudget} : Rejected q budget
    ↔ budget.of (extractOperationType q) < (estimateQueryCost q).totalCost := by
  change (∃ err, (if budget.of (extractOperationType q) < (estimateQueryCost q).totalCost
    then _ else _) = _) ↔ _
  by_cases hlt : budget.of (extractOperationType q) < (estimateQueryCost q).totalCost
  · rw [if_pos hlt]
    exact ⟨fun _ => hlt, fun _ => ⟨_, rfl⟩⟩
  · rw [if_neg hlt]
    refine ⟨?_, fun h => absurd h hlt⟩
    rintro ⟨err, herr⟩
    cases herr

/-- **What a definition behind a query adds to its cost** is the sum of the
fields found in it, so that the query stays rejected under every budget iff
this sum is not negative. -/
theorem rejected_append_iff (q f : List Char) (h : Settled q f) :
    (estimateQueryCost (q ++ f)).totalCost
        = (estimateQueryCost q).totalCost + sumCosts (appended q f) ∧
      ((estimateQueryCost q).totalCost ≤ (estimateQueryCost (q ++ f)).totalCost
        ↔ 0 ≤ sumCosts (appended q f)) ∧
      ((∀ budget, Rejected q budget → Rejected (q ++ f) budget) ↔ 0 ≤ sumCosts (appended q f)) ∧
      ((∀ field ∈ appended q f, 1 ≤ field.depth) → 0 ≤ sumCosts (appended q f)) := by
  have htotal : (estimateQueryCost (q ++ f)).totalCost
      = (estimateQueryCost q).totalCost + sumCosts (appended q f) := by
    rw [totalCost_eq, totalCost_eq, h.fields_eq]
    simp only [sumCosts_eq_sum, map_append, sum_append]
  refine ⟨htotal, ?_, ⟨?_, ?_⟩, sumCosts_nonneg⟩
  · rw [htotal]
    exact le_add_iff_nonneg_right _
  · intro hall
    by_contra hneg
    -- the budget that the longer document just keeps
    let total := (estimateQueryCost (q ++ f)).totalCost
    have hq : Rejected q ⟨total, total, total⟩ := by
      rw [rejected_iff]
      have hlt : total < (estimateQueryCost q).totalCost := by
        change (estimateQueryCost (q ++ f)).totalCost < _
        linarith
      cases extractOperationType q <;> exact hlt
    have hqf := rejected_iff.mp (hall _ hq)
    cases hop : extractOperationType (q ++ f) <;> rw [hop] at hqf <;> exact lt_irrefl _ hqf
  · intro hsum budget hq
    rw [rejected_iff] at hq ⊢
    rw [extractOperationType_append h.brace, htotal]
    linarith

/-- A query of one field, and a fragment. -/
def oneField : List Char := "\x7ba\x7d".toList

def fragmentF : List Char := "fragment F on T\x7ba\x7d".toList

theorem oneField_settled : Settled oneField fragmentF :=
  ⟨by decide +kernel, by decide +kernel, by decide +kernel, rfl⟩

theorem oneField_fragmentF :
    sumCosts (appended oneField fragmentF) = -1 / 2 ∧
      ¬ ∀ budget, Rejected oneField budget → Rejected (oneField ++ fragmentF) budget := by
  have hsum : sumCosts (appended oneField fragmentF) = -1 / 2 := by decide +kernel
  refine ⟨hsum, fun hall => ?_⟩
  have hnonneg := (rejected_append_iff oneField fragmentF oneField_settled).2.2.1.mp hall
  rw [hsum] at hnonneg
  exact absurd hnonneg (by norm_num)

/-- A query of 101 fields. -/
def manyFields : List Char :=
  "\x7b".toList ++ (List.replicate 101 "a ".toList).flatten ++ "\x7d".toList

/-- The default budget is evaded by a fragment. The digits in its name cut
it into pieces that are taken for fields at depth 0. -/
theorem fragment_evades :
    validateQueryCost manyFields defaultBudget = .error ⟨.query, 101, 100⟩ ∧
      validateQueryCost (manyFields ++ "fragment F1F1F on T\x7ba\x7d".toList) defaultBudget
        = .ok ⟨199 / 2, true, 100⟩ := by
  decide +kernel

end ChronoPay.GraphqlCost
