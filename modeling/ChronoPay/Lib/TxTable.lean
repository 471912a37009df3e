import ChronoPay.Lib.KeyedList

/-!
# TxTable — a table with open transactions and row locks

A table of keyed rows, and per connection at most one open transaction:
the rows it has written and not yet committed, and the keys it has
locked. `commit` applies the writes in order; `rollback` forgets them.
Both end the transaction and so release its locks.

A transaction sees its own writes (`seenBy`), nobody else does.
-/

namespace TxTable

structure Tx (α κ : Type*) where
  pending : List α := []
  locks : List κ := []
  deriving DecidableEq

end TxTable

structure TxTable (α κ : Type*) where
  rows : List α
  /-- The open transactions, by connection. -/
  txs : List (Nat × TxTable.Tx α κ) := []
  deriving DecidableEq

namespace TxTable

open KeyedList List

variable {α κ : Type*} (key : α → κ) (t : TxTable α κ) (c : Nat)

def tx : Option (Tx α κ) := (KeyedList.get Prod.fst c t.txs).map Prod.snd

def pendingOf : List α := ((t.tx c).map Tx.pending).getD []

/-- `BEGIN`; inside a transaction it does nothing. -/
def begin : TxTable α κ :=
  match t.tx c with
  | some _ => t
  | none => { t with txs := t.txs ++ [(c, {})] }

def rollback : TxTable α κ := { t with txs := t.txs.filter (·.1 ≠ c) }

/-- Change the transaction of a connection, if it has one open. -/
def within (f : Tx α κ → Tx α κ) : TxTable α κ :=
  { t with txs := KeyedList.modify Prod.fst c (fun tx => (tx.1, f tx.2)) t.txs }

def lock (keys : List κ) : TxTable α κ := t.within c fun tx => { tx with locks := keys ++ tx.locks }

/-- `UPDATE` of one row by its key, inside a transaction. -/
def write (a : α) : TxTable α κ :=
  t.within c fun tx => { pending := tx.pending ++ [a], locks := key a :: tx.locks }

section

variable {key t c} {c' : Nat} {a : α} {keys : List κ}

theorem tx_within (f : Tx α κ → Tx α κ) :
    (t.within c f).tx c' = if c' = c then (t.tx c').map f else t.tx c' := by
  unfold tx within
  rw [get_modify (by exact fun _ => rfl)]
  split
  · cases KeyedList.get Prod.fst c' t.txs <;> rfl
  · rfl

theorem tx_rollback : (t.rollback c).tx c' = if c' = c then none else t.tx c' := by
  unfold tx rollback
  induction t.txs with
  | nil => split <;> rfl
  | cons tx txs ih =>
    by_cases htx : tx.1 = c
    · rw [filter_cons_of_neg (by simpa using htx), ih, get_cons]
      split
      · rfl
      next hne => rw [if_neg fun h => hne (h.symm.trans htx)]
    · rw [filter_cons_of_pos (by simpa using htx), get_cons, get_cons]
      split
      next heq => rw [if_neg fun h => htx (heq.trans h)]
      · exact ih

theorem tx_begin : ((t.begin c).tx c).isSome := by
  unfold begin
  split
  next tx htx =>
    rw [htx]
    rfl
  next hnone =>
    unfold tx
    rw [get_append, get_cons, if_pos rfl]
    cases KeyedList.get Prod.fst c t.txs <;> rfl

theorem tx_isSome_within (f : Tx α κ → Tx α κ) :
    ((t.within c f).tx c').isSome = (t.tx c').isSome := by
  rw [tx_within]
  split
  · exact Option.isSome_map
  · rfl

theorem pendingOf_begin : (t.begin c).pendingOf c' = t.pendingOf c' := by
  unfold begin
  split
  · rfl
  · unfold pendingOf tx
    rw [get_append, get_cons]
    cases hget : KeyedList.get Prod.fst c' t.txs with
    | some tx => rfl
    | none => split <;> rfl

theorem rows_begin : (t.begin c).rows = t.rows := by
  unfold begin
  split <;> rfl

theorem pendingOf_rollback :
    (t.rollback c).pendingOf c' = if c' = c then [] else t.pendingOf c' := by
  unfold pendingOf
  rw [tx_rollback]
  split <;> rfl

theorem pendingOf_lock : (t.lock c keys).pendingOf c' = t.pendingOf c' := by
  unfold pendingOf lock
  rw [tx_within]
  split
  · cases t.tx c' <;> rfl
  · rfl

theorem pendingOf_write_ne (hne : c' ≠ c) : (t.write key c a).pendingOf c' = t.pendingOf c' := by
  unfold pendingOf write
  rw [tx_within, if_neg hne]

theorem pendingOf_write (h : (t.tx c).isSome) :
    (t.write key c a).pendingOf c = t.pendingOf c ++ [a] := by
  unfold pendingOf write
  rw [tx_within, if_pos rfl]
  obtain ⟨tx, htx⟩ := Option.isSome_iff_exists.mp h
  rw [htx]
  rfl

/-- What holds of every pending write and of one more. -/
theorem forall_mem_pendingOf_write {P : α → Prop} (h : ∀ b ∈ t.pendingOf c', P b) (ha : P a) :
    ∀ b ∈ (t.write key c a).pendingOf c', P b := by
  by_cases hc : c' = c
  · subst hc
    cases htx : t.tx c' with
    | none =>
      unfold pendingOf write
      rw [tx_within, if_pos rfl, htx]
      exact nofun
    | some tx =>
      rw [pendingOf_write (by rw [htx]; rfl)]
      exact forall_mem_append.mpr ⟨h, forall_mem_singleton.mpr ha⟩
  · rw [pendingOf_write_ne hc]
    exact h

end

variable [DecidableEq κ]

/-- The rows after the writes. -/
def applyWrites (pending rows : List α) : List α :=
  pending.foldl (fun rows a => KeyedList.modify key (key a) (fun _ => a) rows) rows

def commit : TxTable α κ :=
  { rows := applyWrites key (t.pendingOf c) t.rows, txs := t.txs.filter (·.1 ≠ c) }

def lockedByOther (k : κ) : Bool := t.txs.any fun tx => tx.1 ≠ c ∧ k ∈ tx.2.locks

/-- A row as the connection's own transaction sees it. -/
def seenBy (row : α) : α := ((t.pendingOf c).reverse.find? fun a => key a = key row).getD row

variable {key t c} {c' : Nat} {a row : α} {pending rows : List α}

theorem pendingOf_commit : (t.commit key c).pendingOf c' = if c' = c then [] else t.pendingOf c' :=
  pendingOf_rollback

theorem map_key_applyWrites : (applyWrites key pending rows).map key = rows.map key := by
  induction pending generalizing rows with
  | nil => rfl
  | cons a pending ih => exact ih.trans (map_key_modify_of_key fun _ _ => rfl)

/-- What holds of the rows and of the writes holds of the rows after
them. -/
theorem forall_mem_applyWrites {P : α → Prop} (hrows : ∀ a ∈ rows, P a)
    (hpending : ∀ a ∈ pending, P a) : ∀ a ∈ applyWrites key pending rows, P a := by
  induction pending generalizing rows with
  | nil => exact hrows
  | cons a pending ih =>
    refine ih ?_ (forall_mem_cons.mp hpending).2
    exact forall_mem_modify (fun _ _ => hpending a mem_cons_self) hrows

/-- Every row satisfies `P` and every write that is not committed `Q`. -/
structure Holds (P Q : α → Prop) (t : TxTable α κ) : Prop where
  rows : ∀ a ∈ t.rows, P a
  pending : ∀ c, ∀ a ∈ t.pendingOf c, Q a

section

variable {P Q : α → Prop} {keys : List κ}

omit [DecidableEq κ] in
theorem Holds.begin (h : t.Holds P Q) : (t.begin c).Holds P Q where
  rows := by
    rw [rows_begin]
    exact h.rows
  pending c' := by
    rw [pendingOf_begin]
    exact h.pending c'

omit [DecidableEq κ] in
theorem Holds.lock (h : t.Holds P Q) : (t.lock c keys).Holds P Q where
  rows := h.rows
  pending c' := by
    rw [pendingOf_lock]
    exact h.pending c'

omit [DecidableEq κ] in
theorem Holds.write (h : t.Holds P Q) (ha : Q a) : (t.write key c a).Holds P Q where
  rows := h.rows
  pending c' := forall_mem_pendingOf_write (h.pending c') ha

omit [DecidableEq κ] in
theorem Holds.rollback (h : t.Holds P Q) : (t.rollback c).Holds P Q where
  rows := h.rows
  pending c' := by
    rw [pendingOf_rollback]
    split
    · exact nofun
    · exact h.pending c'

theorem Holds.commit (h : t.Holds P Q) (hQ : ∀ a, Q a → P a) : (t.commit key c).Holds P Q where
  rows := forall_mem_applyWrites h.rows fun a ha => hQ a (h.pending c a ha)
  pending := (h.rollback (c := c)).pending

end

/-- With distinct keys a row after the writes is one of them, or a row
whose key none of them has. -/
theorem mem_applyWrites (hkeys : (rows.map key).Nodup) (h : a ∈ applyWrites key pending rows) :
    a ∈ pending ∨ (a ∈ rows ∧ ∀ b ∈ pending, key b ≠ key a) := by
  induction pending generalizing rows with
  | nil => exact .inr ⟨h, nofun⟩
  | cons b pending ih =>
    have hkeys' : ((KeyedList.modify key (key b) (fun _ => b) rows).map key).Nodup := by
      rw [map_key_modify_of_key fun _ _ => rfl]
      exact hkeys
    rcases ih hkeys' h with hmem | ⟨hmem, hnone⟩
    · exact .inl (mem_cons_of_mem _ hmem)
    · rcases mem_modify hkeys hmem with ⟨hold, hne⟩ | ⟨_, _, _, rfl⟩
      · exact .inr ⟨hold, forall_mem_cons.mpr ⟨Ne.symm hne, hnone⟩⟩
      · exact .inl mem_cons_self

theorem seenBy_of_pendingOf (h : t.pendingOf c = []) : t.seenBy key c row = row := by
  rw [seenBy, h]
  rfl

/-- What holds of the row and of the writes holds of the row as seen. -/
theorem seenBy_inv {P : α → Prop} (hrow : P row) (hpending : ∀ a ∈ t.pendingOf c, P a) :
    P (t.seenBy key c row) := by
  unfold seenBy
  cases hfind : (t.pendingOf c).reverse.find? fun a => key a = key row with
  | none => exact hrow
  | some a => exact hpending a (mem_reverse.mp (mem_of_find?_eq_some hfind))

end TxTable
