import Mathlib.Algebra.Group.Int.Defs
import ChronoPay.JsText
import ChronoPay.Lib.KeyedList
import ChronoPay.Lib.Result
import ChronoPay.Lib.TextPieces

/-!
# MemoHash — the memo of a redemption receipt

The memo is the digest of the receipt's fields, normalised, escaped and
joined by `|`. The escape writes `%7C` for the separator and leaves a
`%7C` of the field as it is, so what is digested is the fields up to
that: two receipts have one memo exactly when they agree once every
`%7C` is read as `|`.

Texts are well-formed Unicode. `nfc` is `normalize("NFC")`, of which
nothing is needed, and `sha256` has no collisions.
-/

namespace ChronoPay

open Function

namespace MemoHash

structure RedemptionReceiptPayload where
  tokenId : String
  redeemerId : String
  redemptionId : String
  amountStroops : Int
  deriving DecidableEq, Repr

inductive MemoHashError where
  /-- RangeError -/
  | amountStroops (amount : Int)
  | memoHashFormat (raw : String)
  deriving DecidableEq, Repr

def MemoHashError.message : MemoHashError → String
  | amountStroops amount => s!"amount_stroops must be a non-negative safe integer, got: {amount}"
  | memoHashFormat raw =>
    "Invalid memo hash format: expected 64 hex characters, got \"" ++
      String.ofList (raw.toList.take 80) ++ "\""

/-- `replace(/\|/g, "%7C")`. -/
def escape : List Char → List Char
  | [] => []
  | c :: text => if c = '|' then '%' :: '7' :: 'C' :: escape text else c :: escape text

/-- Every `%7C` read as the separator. -/
def unescape : List Char → List Char
  | '%' :: '7' :: 'C' :: text => '|' :: unescape text
  | c :: text => c :: unescape text
  | [] => []

section

variable (nfc sha256 : String → String)

def canonicaliseField (raw : String) : List Char := escape (nfc raw).toList

def buildCanonicalString (payload : RedemptionReceiptPayload) : Except MemoHashError String :=
  if payload.amountStroops < 0 ∨ 2 ^ 53 - 1 < payload.amountStroops then
    .error (.amountStroops payload.amountStroops)
  else
    .ok (String.ofList (canonicaliseField nfc payload.tokenId ++ '|' ::
      (canonicaliseField nfc payload.redeemerId ++ '|' ::
        (canonicaliseField nfc payload.redemptionId ++ '|' ::
          (toString payload.amountStroops.toNat).toList))))

def deriveMemoHash (payload : RedemptionReceiptPayload) : Except MemoHashError String :=
  (buildCanonicalString nfc payload).map sha256

/-- Buffers of two digests in lower case are equal when these are. -/
def verifyMemoHash (onChainHex : String) (payload : RedemptionReceiptPayload) :
    Except MemoHashError Bool :=
  let normalised := (trim onChainHex).toLower
  if normalised.length = 64 ∧ normalised.toList.all (fun c => c.isDigit || ('a' ≤ c && c ≤ 'f')) then
    (deriveMemoHash nfc sha256 payload).map fun expected => expected = normalised
  else .error (.memoHashFormat onChainHex)

/-- The receipts agree up to normalisation and `%7C` for `|`. -/
structure Agree (p q : RedemptionReceiptPayload) : Prop where
  tokenId : unescape (nfc p.tokenId).toList = unescape (nfc q.tokenId).toList
  redeemerId : unescape (nfc p.redeemerId).toList = unescape (nfc q.redeemerId).toList
  redemptionId : unescape (nfc p.redemptionId).toList = unescape (nfc q.redemptionId).toList
  amountStroops : p.amountStroops = q.amountStroops

end

theorem not_mem_escape (text : List Char) : '|' ∉ escape text := by
  induction text with
  | nil => exact List.not_mem_nil
  | cons c text ih =>
    rw [escape]
    split_ifs with hc
    · simp [ih]
    · simp [ih, Ne.symm hc]

theorem escape_unescape (text : List Char) : escape (unescape text) = escape text := by
  induction text using unescape.induct with
  | case1 text ih => simp [unescape, escape, ih]
  | case2 c text hplain ih => rw [unescape.eq_2 c text hplain, escape, escape, ih]
  | case3 => rfl

/-- The escape starts with no other character than the text, but for `%`. -/
theorem escape_eq_cons {text rest : List Char} {c : Char} (hc : c ≠ '%')
    (h : escape text = c :: rest) : ∃ tail, text = c :: tail ∧ escape tail = rest := by
  cases text with
  | nil => cases h
  | cons d text =>
    rw [escape] at h
    split_ifs at h
    · exact absurd (List.cons.inj h).1.symm hc
    · obtain ⟨rfl, hrest⟩ := List.cons.inj h
      exact ⟨text, rfl, hrest⟩

theorem unescape_escape (text : List Char) : unescape (escape text) = unescape text := by
  induction text using unescape.induct with
  | case1 text ih => simp [unescape, escape, ih]
  | case2 c text hplain ih =>
    rw [unescape.eq_2 c text hplain, escape]
    split_ifs with hc
    · rw [hc, unescape, ih]
    · rw [unescape.eq_2, ih]
      -- the escape of the rest starts with `7C` only if the rest does
      rintro rest rfl hrest
      obtain ⟨tail, rfl, htail⟩ := escape_eq_cons (by decide) hrest
      obtain ⟨tail, rfl, -⟩ := escape_eq_cons (by decide) htail
      exact hplain tail rfl rfl
  | case3 => rfl

theorem escape_eq_iff {a b : List Char} : escape a = escape b ↔ unescape a = unescape b := by
  constructor
  · intro h
    rw [← unescape_escape, h, unescape_escape]
  · intro h
    rw [← escape_unescape, h, escape_unescape]

/-- Escaped texts can be told apart in front of a separator. -/
theorem escape_append_eq_iff {a b : List Char} {rest rest' : List Char} :
    escape a ++ '|' :: rest = escape b ++ '|' :: rest' ↔
      unescape a = unescape b ∧ rest = rest' := by
  constructor
  · intro h
    obtain ⟨hescape, hrest⟩ := TextPieces.append_inj_of_kind (· ≠ '|')
      (fun c hc heq => not_mem_escape a (heq ▸ hc)) (fun c hc heq => not_mem_escape b (heq ▸ hc))
      (by simp) (by simp) h
    exact ⟨escape_eq_iff.mp hescape, (List.cons.inj hrest).2⟩
  · rintro ⟨h, rfl⟩
    rw [escape_eq_iff.mpr h]

variable {nfc sha256 : String → String} {p q : RedemptionReceiptPayload} {text text' : String}

theorem buildCanonicalString_eq_iff (hp : buildCanonicalString nfc p = .ok text)
    (hq : buildCanonicalString nfc q = .ok text') : text = text' ↔ Agree nfc p q := by
  unfold buildCanonicalString at hp hq
  split_ifs at hp hq with hp' hq'
  cases hp
  cases hq
  have hamount : (toString p.amountStroops.toNat).toList = (toString q.amountStroops.toNat).toList ↔
      p.amountStroops = q.amountStroops := by
    constructor
    · intro h
      have hnat := KeyedList.label_injective "" (congrArg ("" ++ ·) (String.toList_inj.mp h))
      omega
    · rintro h
      rw [h]
  rw [String.ofList_inj]
  simp only [canonicaliseField, escape_append_eq_iff, hamount]
  exact ⟨fun ⟨ht, hr, hi, ha⟩ => ⟨ht, hr, hi, ha⟩, fun ⟨ht, hr, hi, ha⟩ => ⟨ht, hr, hi, ha⟩⟩

/-- **Which receipts share a memo**: those that agree up to normalisation,
`%7C` read as `|`, and no others; and what one memo verifies agrees in
this way. -/
theorem deriveMemoHash_eq_iff (hcollision : Injective sha256)
    (hp : Result.Ok (buildCanonicalString nfc p)) (hq : Result.Ok (buildCanonicalString nfc q)) :
    (deriveMemoHash nfc sha256 p = deriveMemoHash nfc sha256 q ↔ Agree nfc p q) ∧
    ∀ onChainHex, verifyMemoHash nfc sha256 onChainHex p = .ok true →
      verifyMemoHash nfc sha256 onChainHex q = .ok true → Agree nfc p q := by
  obtain ⟨text, hp⟩ := hp
  obtain ⟨text', hq⟩ := hq
  have hhash : ∀ {r : RedemptionReceiptPayload} {text : String},
      buildCanonicalString nfc r = .ok text → deriveMemoHash nfc sha256 r = .ok (sha256 text) := by
    intro r text h
    rw [deriveMemoHash, h]
    rfl
  rw [← buildCanonicalString_eq_iff hp hq]
  refine ⟨?_, fun onChainHex hverify hverify' => ?_⟩
  · rw [hhash hp, hhash hq, Except.ok.injEq, hcollision.eq_iff]
  · unfold verifyMemoHash at hverify hverify'
    rw [hhash hp] at hverify
    rw [hhash hq] at hverify'
    dsimp only at hverify hverify'
    split_ifs at hverify hverify'
    have hsame : sha256 text = sha256 text' :=
      (of_decide_eq_true (Except.ok.inj hverify)).trans
        (of_decide_eq_true (Except.ok.inj hverify')).symm
    exact hcollision hsame

/-- A receipt for 5 stroops. -/
def receipt (tokenId : String) : RedemptionReceiptPayload where
  tokenId
  redeemerId := "ann"
  redemptionId := "r1"
  amountStroops := 5

theorem deriveMemoHash_eq_iff_plain :
    deriveMemoHash id id (receipt "TIME") = deriveMemoHash id id (receipt "HOUR") ↔
      Agree id (receipt "TIME") (receipt "HOUR") :=
  (deriveMemoHash_eq_iff injective_id ⟨_, rfl⟩ ⟨_, rfl⟩).1

/-- The escaped separator, written by hand. -/
theorem memo_collision :
    (receipt "a|b").tokenId ≠ (receipt "a%7Cb").tokenId ∧
      deriveMemoHash id id (receipt "a|b") = deriveMemoHash id id (receipt "a%7Cb") := by
  decide +kernel

end MemoHash

end ChronoPay
