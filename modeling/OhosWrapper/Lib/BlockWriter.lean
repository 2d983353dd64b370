import Mathlib.Data.List.Infix
import Mathlib.Data.List.Induction
import OhosWrapper.Lib.Transducer

/-!
# Block writers

What a buffered writer is for, without its memory: it keeps fewer than `cap` pending elements,
sends the pending block when one more element fills it, and sends what is pending on a flush.

**Conservation** (`flatten_output_append_pending`). The blocks sent, in order, followed by what
is pending are the elements written.

**Fill level** (`length_pending`). What is pending are the elements put since the last flush,
modulo `cap`, so a writer is empty after a whole number of blocks.

**Full blocks** (`full_block_iff`). A block of `cap` elements is sent just when `cap` elements are
put in a row.

**Blocks of a text** (`puts`). A text put into an empty writer is cut into blocks of `cap` elements,
and what is left of it is pending.
-/

/-- A writer that holds fewer than `cap` pending elements. -/
@[ext] structure BlockWriter (α : Type*) (cap : ℕ) where
  pending : List α
  lt : pending.length < cap

namespace BlockWriter

variable {α : Type*} {cap : ℕ}

/-- The two things done to a writer. -/
inductive Op (α : Type*)
  | put (a : α)
  | flush

/-- The elements a list of operations writes. -/
def written : List (Op α) → List α
  | [] => []
  | .put a :: ops => a :: written ops
  | .flush :: ops => written ops

/-- The number of elements put since the last flush, or since the start. -/
def sinceFlush : List (Op α) → ℕ :=
  List.foldl (fun k op => match op with | .put _ => k + 1 | .flush => 0) 0

/-- A writer with nothing pending. -/
def empty (h : 0 < cap) : BlockWriter α cap := ⟨[], h⟩

/-- Add one element; a filled block is sent. -/
def put (w : BlockWriter α cap) (a : α) : BlockWriter α cap × List (List α) :=
  if h : w.pending.length + 1 < cap then (⟨w.pending ++ [a], by simpa using h⟩, [])
  else (empty (Nat.zero_lt_of_lt w.lt), [w.pending ++ [a]])

/-- Send what is pending, if anything is. -/
def flush (w : BlockWriter α cap) : BlockWriter α cap × List (List α) :=
  if w.pending = [] then (w, []) else (empty (Nat.zero_lt_of_lt w.lt), [w.pending])

/-- The writer as a transducer that emits the blocks it sends. -/
def machine (α : Type*) (cap : ℕ) : Transducer (BlockWriter α cap) (Op α) (List α) where
  step w
    | .put a => w.put a
    | .flush => w.flush

theorem written_append (as bs : List (Op α)) : written (as ++ bs) = written as ++ written bs := by
  induction as with
  | nil => rfl
  | cons op as ih => cases op <;> simp [written, ih]

@[simp] theorem written_map_put (l : List α) : written (l.map Op.put) = l := by
  induction l with
  | nil => rfl
  | cons a l ih => simp [written, ih]

@[simp] theorem sinceFlush_concat_put (ops : List (Op α)) (a : α) :
    sinceFlush (ops ++ [.put a]) = sinceFlush ops + 1 := by
  simp [sinceFlush]

@[simp] theorem sinceFlush_concat_flush (ops : List (Op α)) :
    sinceFlush (ops ++ [.flush]) = 0 := by
  simp [sinceFlush]

/-- The elements since the last flush are a run of puts at the end of the operations. -/
theorem exists_suffix_sinceFlush (ops : List (Op α)) :
    ∃ l : List α, l.map Op.put <:+ ops ∧ l.length = sinceFlush ops := by
  induction ops using List.reverseRecOn with
  | nil => exact ⟨[], List.suffix_refl _, rfl⟩
  | append_singleton ops op ih =>
    cases op with
    | put a =>
      obtain ⟨l, hl, hlen⟩ := ih
      refine ⟨l ++ [a], ?_, by simp [hlen]⟩
      rw [List.map_append]
      exact List.suffix_concat_iff.2 (Or.inr ⟨_, rfl, hl⟩)
    | flush => exact ⟨[], List.nil_suffix, by simp⟩

/-- A run of puts at the end of the operations ends with the last of them, if it is not empty. -/
theorem suffix_concat_of_map_put {ops : List (Op α)} {op : Op α} {l : List α}
    (h : l.map Op.put <:+ ops ++ [op]) :
    l = [] ∨ ∃ l' a, l = l' ++ [a] ∧ op = .put a ∧ l'.map Op.put <:+ ops := by
  rcases List.suffix_concat_iff.1 h with hnil | ⟨t, ht, hsuf⟩
  · exact Or.inl (List.map_eq_nil_iff.1 hnil)
  · obtain ⟨l', l₂, rfl, rfl, h₂⟩ := List.map_eq_append_iff.1 ht
    obtain ⟨a, rfl, hop⟩ := List.map_eq_singleton_iff.1 h₂
    exact Or.inr ⟨l', a, rfl, hop.symm, hsuf⟩

/-- No run of puts at the end is longer than that. -/
theorem length_le_sinceFlush {ops : List (Op α)} {l : List α} (h : l.map Op.put <:+ ops) :
    l.length ≤ sinceFlush ops := by
  induction ops using List.reverseRecOn generalizing l with
  | nil => simp [List.suffix_nil.1 h |> List.map_eq_nil_iff.1]
  | append_singleton ops op ih =>
    rcases suffix_concat_of_map_put h with rfl | ⟨l', a, rfl, rfl, hsuf⟩
    · exact Nat.zero_le _
    · simpa using ih hsuf

/-! ## One step -/

theorem length_concat_lt {w : BlockWriter α cap} (h : w.pending.length + 1 < cap) (a : α) :
    (w.pending ++ [a]).length < cap := by
  rw [List.length_append, List.length_singleton]
  exact h

theorem put_of_lt {w : BlockWriter α cap} (h : w.pending.length + 1 < cap) (a : α) :
    w.put a = (⟨w.pending ++ [a], length_concat_lt h a⟩, []) := dif_pos h

theorem put_of_full {w : BlockWriter α cap} (h : w.pending.length + 1 = cap) (a : α) :
    w.put a = (empty (Nat.zero_lt_of_lt w.lt), [w.pending ++ [a]]) :=
  dif_neg (by omega)

/-- A put either keeps the element or sends the block it fills. -/
theorem put_cases (w : BlockWriter α cap) (a : α) :
    ((w.put a).1.pending = w.pending ++ [a] ∧ (w.put a).2 = []) ∨
    (w.pending.length + 1 = cap ∧ (w.put a).1.pending = [] ∧
      (w.put a).2 = [w.pending ++ [a]]) := by
  by_cases h : w.pending.length + 1 < cap
  · rw [put_of_lt h]; exact Or.inl ⟨rfl, rfl⟩
  · have hfull : w.pending.length + 1 = cap := by have := w.lt; omega
    rw [put_of_full hfull]
    exact Or.inr ⟨hfull, rfl, rfl⟩

/-- A flush leaves nothing pending, and sends what was pending unless that was nothing. -/
theorem flush_cases (w : BlockWriter α cap) :
    (w.flush).1.pending = [] ∧
    ((w.pending = [] ∧ w.flush.2 = []) ∨ (w.pending ≠ [] ∧ w.flush.2 = [w.pending])) := by
  unfold flush
  split_ifs with h
  · exact ⟨h, Or.inl ⟨h, rfl⟩⟩
  · exact ⟨rfl, Or.inr ⟨h, rfl⟩⟩

/-! ## Conservation -/

theorem flatten_put (w : BlockWriter α cap) (a : α) :
    (w.put a).2.flatten ++ (w.put a).1.pending = w.pending ++ [a] := by
  rcases w.put_cases a with ⟨hp, hs⟩ | ⟨-, hp, hs⟩ <;> simp [hp, hs]

theorem flatten_flush (w : BlockWriter α cap) :
    w.flush.2.flatten ++ w.flush.1.pending = w.pending := by
  obtain ⟨hp, ⟨h, hs⟩ | ⟨-, hs⟩⟩ := w.flush_cases <;> simp [*]

/-- **Conservation.** Nothing is lost, duplicated or reordered. -/
theorem flatten_output_append_pending (w : BlockWriter α cap) (ops : List (Op α)) :
    ((machine α cap).output w ops).flatten ++ ((machine α cap).state w ops).pending =
      w.pending ++ written ops := by
  induction ops generalizing w with
  | nil => simp [written]
  | cons op ops ih =>
    simp only [Transducer.output_cons, Transducer.state_cons, List.flatten_append,
      List.append_assoc, ih]
    cases op with
    | put a =>
      rw [← List.append_assoc, show ((machine α cap).step w (.put a)) = w.put a from rfl,
        flatten_put, List.append_assoc]
      rfl
    | flush =>
      rw [← List.append_assoc, show ((machine α cap).step w .flush) = w.flush from rfl,
        flatten_flush]
      rfl

/-! ## The fill level -/

theorem length_pending_put (w : BlockWriter α cap) (a : α) :
    (w.put a).1.pending.length = (w.pending.length + 1) % cap := by
  have := w.lt
  rcases w.put_cases a with ⟨hp, hs⟩ | ⟨hfull, hp, -⟩
  · have hlt := (w.put a).1.lt
    rw [hp, List.length_append, List.length_singleton] at hlt ⊢
    exact (Nat.mod_eq_of_lt hlt).symm
  · rw [hp, hfull, Nat.mod_self]; rfl

/-- The fill level counts what was put since the last flush, modulo the block size. -/
theorem length_pending (w : BlockWriter α cap) (hw : w.pending = []) (ops : List (Op α)) :
    ((machine α cap).state w ops).pending.length = sinceFlush ops % cap := by
  induction ops using List.reverseRecOn with
  | nil => simp [hw, sinceFlush]
  | append_singleton ops op ih =>
    rw [Transducer.state_concat]
    cases op with
    | put a =>
      show (((machine α cap).state w ops).put a).1.pending.length = _
      rw [length_pending_put, ih, sinceFlush_concat_put, Nat.mod_add_mod]
    | flush =>
      show (((machine α cap).state w ops).flush).1.pending.length = _
      rw [(flush_cases _).1, sinceFlush_concat_flush, Nat.zero_mod]; rfl

/-! ## Full blocks -/

/-- A step fills a whole block just when it is a put with room for one more element. -/
theorem full_step_iff (w : BlockWriter α cap) (op : Op α) :
    (∃ b ∈ ((machine α cap).step w op).2, b.length = cap) ↔
      (∃ a, op = .put a) ∧ w.pending.length + 1 = cap := by
  have hlt := w.lt
  cases op with
  | put a =>
    change (∃ b ∈ (w.put a).2, b.length = cap) ↔ _
    rcases w.put_cases a with ⟨hp, hs⟩ | ⟨hfull, -, hs⟩ <;> rw [hs]
    · have hlt' := (w.put a).1.lt
      rw [hp, List.length_append, List.length_singleton] at hlt'
      simp; omega
    · simp [hfull]
  | flush =>
    change (∃ b ∈ w.flush.2, b.length = cap) ↔ _
    obtain ⟨-, ⟨-, hs⟩ | ⟨-, hs⟩⟩ := w.flush_cases <;> rw [hs]
    · simp
    · simp; omega

/-- **Full blocks.** Started empty, a writer sends a block of `cap` elements just when `cap`
elements are put in a row. -/
theorem full_block_iff {w : BlockWriter α cap} (hw : w.pending = []) (ops : List (Op α)) :
    (∃ b ∈ (machine α cap).output w ops, b.length = cap) ↔
      ∃ l : List α, l.map Op.put <:+: ops ∧ cap ≤ l.length := by
  induction ops using List.reverseRecOn with
  | nil =>
    have := w.lt
    simp only [Transducer.output_nil, List.not_mem_nil, false_and, exists_false, List.infix_nil,
      List.map_eq_nil_iff, exists_eq_left, false_iff, List.length_nil]
    omega
  | append_singleton ops op ih =>
    have hsplit : (∃ b ∈ (machine α cap).output w (ops ++ [op]), b.length = cap) ↔
        (∃ b ∈ (machine α cap).output w ops, b.length = cap) ∨
          ∃ b ∈ ((machine α cap).step ((machine α cap).state w ops) op).2, b.length = cap := by
      simp only [Transducer.output_concat, List.mem_append, or_and_right, exists_or]
    rw [hsplit, ih, full_step_iff, length_pending w hw]
    refine ⟨?_, ?_⟩
    · intro h
      rcases h with ⟨l, hl, hcap⟩ | ⟨⟨a, rfl⟩, hfull⟩
      · exact ⟨l, hl.trans (List.infix_append' [] ops [op]), hcap⟩
      · -- The fill level is at most the puts in a row before this one.
        obtain ⟨l, hl, hlen⟩ := exists_suffix_sinceFlush ops
        refine ⟨l ++ [a], ?_, ?_⟩
        · rw [List.map_append]
          exact (List.suffix_concat_iff.2 (Or.inr ⟨_, rfl, hl⟩)).isInfix
        · have := Nat.mod_le (sinceFlush ops) cap
          simp only [List.length_append, List.length_singleton]
          omega
    · intro h
      obtain ⟨l, hl, hcap⟩ := h
      by_cases hold : ∃ l : List α, l.map Op.put <:+: ops ∧ cap ≤ l.length
      · exact Or.inl hold
      · right
        -- No block was filled before, so the fill level is all the puts since the last flush.
        have hsince : sinceFlush ops < cap := by
          obtain ⟨l', hl', hlen'⟩ := exists_suffix_sinceFlush ops
          by_contra hge
          exact hold ⟨l', hl'.isInfix, by omega⟩
        rw [Nat.mod_eq_of_lt hsince]
        rcases List.infix_concat_iff.1 hl with hl | hl
        · rcases suffix_concat_of_map_put hl with rfl | ⟨l', a, rfl, rfl, hsuf⟩
          · have := w.lt
            rw [List.length_nil] at hcap
            omega
          · have := length_le_sinceFlush hsuf
            rw [List.length_append, List.length_singleton] at hcap
            exact ⟨⟨a, rfl⟩, by omega⟩
        · exact absurd ⟨l, hl, hcap⟩ hold

/-! ## Blocks of a text -/

/-- The full blocks. -/
def fullBlocks (cap : ℕ) (t : List α) : List (List α) :=
  (List.range (t.length / cap)).map fun k => (t.drop (k * cap)).take cap

/-- What is left after them. -/
def rest (cap : ℕ) (t : List α) : List α := t.drop (t.length / cap * cap)

/-- All blocks. The last one may be short. -/
def blocks (cap : ℕ) (t : List α) : List (List α) :=
  if rest cap t = [] then fullBlocks cap t else fullBlocks cap t ++ [rest cap t]

@[simp] theorem fullBlocks_nil (cap : ℕ) : fullBlocks cap ([] : List α) = [] := by
  simp [fullBlocks]

theorem length_rest (cap : ℕ) (t : List α) : (rest cap t).length = t.length % cap := by
  rw [rest, List.length_drop, Nat.mod_eq_sub_div_mul]

theorem rest_eq_nil_iff {t : List α} : rest cap t = [] ↔ cap ∣ t.length := by
  rw [← List.length_eq_zero_iff, length_rest, Nat.dvd_iff_mod_eq_zero]

/-- A text shorter than a block. -/
theorem blocks_of_lt {t : List α} (h : t.length < cap) :
    fullBlocks cap t = [] ∧ blocks cap t = if t = [] then [] else [t] := by
  have hdiv : t.length / cap = 0 := Nat.div_eq_of_lt h
  have hfull : fullBlocks cap t = [] := by rw [fullBlocks, hdiv, List.range_zero, List.map_nil]
  have hrest : rest cap t = t := by rw [rest, hdiv, Nat.zero_mul, List.drop_zero]
  rw [blocks, hrest, hfull, List.nil_append]
  exact ⟨rfl, rfl⟩

/-- Blocks that were full before are not changed by what is added. -/
theorem block_concat {t : List α} {k : ℕ} (hk : k < t.length / cap) (a : α) :
    ((t ++ [a]).drop (k * cap)).take cap = (t.drop (k * cap)).take cap := by
  have hle : (k + 1) * cap ≤ t.length :=
    (Nat.mul_le_mul_right cap hk).trans (Nat.div_mul_le_self _ _)
  rw [Nat.succ_mul] at hle
  rw [List.drop_append_of_le_length (by omega), List.take_append_of_le_length]
  rw [List.length_drop]
  omega

theorem map_block_concat (t : List α) (a : α) :
    ((List.range (t.length / cap)).map fun k => ((t ++ [a]).drop (k * cap)).take cap) =
      fullBlocks cap t :=
  List.map_congr_left fun _ hk => block_concat (List.mem_range.1 hk) a

theorem blocks_concat_of_lt {t : List α} (h : (rest cap t).length + 1 < cap) (a : α) :
    fullBlocks cap (t ++ [a]) = fullBlocks cap t ∧ rest cap (t ++ [a]) = rest cap t ++ [a] := by
  have hmod := Nat.div_add_mod' t.length cap
  have hdiv : (t ++ [a]).length / cap = t.length / cap := by
    rw [length_rest] at h
    rw [List.length_append, List.length_singleton]
    apply Nat.div_eq_of_lt_le
    · omega
    · rw [Nat.succ_mul]
      omega
  rw [fullBlocks, hdiv, map_block_concat, rest, hdiv, rest,
    List.drop_append_of_le_length (Nat.div_mul_le_self _ _)]
  exact ⟨rfl, rfl⟩

theorem blocks_concat_of_full {t : List α} (h : (rest cap t).length + 1 = cap) (a : α) :
    fullBlocks cap (t ++ [a]) = fullBlocks cap t ++ [rest cap t ++ [a]] ∧
      rest cap (t ++ [a]) = [] := by
  have hmod := Nat.div_add_mod' t.length cap
  rw [length_rest] at h
  have hlen : (t ++ [a]).length = (t.length / cap + 1) * cap := by
    rw [List.length_append, List.length_singleton, Nat.succ_mul]
    omega
  have hdiv : (t ++ [a]).length / cap = t.length / cap + 1 := by
    rw [hlen, Nat.mul_div_cancel _ (by omega)]
  refine ⟨?_, ?_⟩
  · rw [fullBlocks, hdiv, List.range_succ, List.map_append, map_block_concat, List.map_singleton,
      List.drop_append_of_le_length (Nat.div_mul_le_self _ _)]
    change _ ++ [(rest cap t ++ [a]).take cap] = _
    rw [List.take_of_length_le]
    rw [List.length_append, List.length_singleton, length_rest]
    exact h.le
  · rw [rest, hdiv, ← hlen, List.drop_length]

/-- **Blocks.** A text is sent in full blocks, and the rest is pending. -/
theorem puts (h : 0 < cap) (t : List α) :
    (machine α cap).output (empty h) (t.map .put) = fullBlocks cap t ∧
      ((machine α cap).state (empty h) (t.map .put)).pending = rest cap t := by
  induction t using List.reverseRecOn with
  | nil => simp [rest, empty]
  | append_singleton t a ih =>
    obtain ⟨hout, hpending⟩ := ih
    rw [List.map_append, List.map_singleton, Transducer.output_concat, Transducer.state_concat,
      hout]
    generalize (machine α cap).state (empty h) (t.map .put) = w at hpending
    change _ ++ (w.put a).2 = _ ∧ (w.put a).1.pending = _
    have hw := w.lt
    by_cases hlt : w.pending.length + 1 < cap
    · obtain ⟨hfull, hrest⟩ := blocks_concat_of_lt (hpending ▸ hlt) a
      rw [put_of_lt hlt, hfull, hrest, List.append_nil, ← hpending]
      exact ⟨rfl, rfl⟩
    · have hlast : w.pending.length + 1 = cap := by omega
      obtain ⟨hfull, hrest⟩ := blocks_concat_of_full (hpending ▸ hlast) a
      rw [put_of_full hlast, hfull, hrest, ← hpending]
      exact ⟨rfl, rfl⟩

end BlockWriter
