import OhosWrapper.Logging.StreamBuf

/-!
# The stores of the log buffer

The constructor sets the end of the put area to `buffer_.end() - 1`, "to reserve one position
for the terminator". The position is only reserved as long as nobody overflows: `overflow`
stores its character in the last cell of the array before it calls `sync`, which then finds `N`
characters pending and stores the terminator at `buffer_[N]`.

**Theorem (`inBounds_iff`).** A run from the constructor stays inside the array, with every
message at most `N - 1` characters long and its terminator stored directly before it is printed,
exactly when no `N` characters are written in a row without a sync between them.
-/

namespace OhosWrapper.Logging

namespace OHLogStreamBuf

variable {N : ℕ}

/-- Every store has an index below `N`, and every message has at most `N - 1` characters and is
printed directly after its terminator is stored behind them. -/
def InBounds (N : ℕ) (es : List Effect) : Prop :=
  (∀ i v, Effect.store i v ∈ es → i < N) ∧ (∀ m, Effect.print m ∈ es → m.raw.length ≤ N - 1) ∧
    Terminated es

/-- A step stores past the array only when it flushes a block of `N` characters. -/
theorem Rep.store_lt {b : OHLogStreamBuf N} {w : BlockWriter UInt8 N} (h : Rep b w)
    {op : BlockWriter.Op UInt8} (hblock : ∀ l ∈ ((BlockWriter.machine UInt8 N).step w op).2,
      l.length ≠ N) {i : ℕ} {v : UInt8} (hi : Effect.store i v ∈ ((machine N).step b op).2) :
    i < N := by
  have hlt := h.pptr_lt
  cases op with
  | put c =>
    change _ ∈ (b.sputc c).2.2 at hi
    by_cases hroom : b.pptr < N - 1
    · rw [h.sputc_room hroom] at hi
      obtain ⟨rfl, rfl⟩ := Effect.store.inj (List.mem_singleton.1 hi)
      exact hlt
    · have hw : w.pending.length + 1 = N := by rw [← h.pptr]; omega
      have hsent := hblock (w.pending ++ [c])
      rw [show (BlockWriter.machine UInt8 N).step w (.put c) = w.put c from rfl,
        BlockWriter.put_of_full hw] at hsent
      exact absurd (by simpa using hw) (hsent (by simp))
  | flush =>
    change _ ∈ b.sync.2.2 at hi
    by_cases hw : w.pending = []
    · rw [h.sync_nil hw] at hi
      cases hi
    · rw [h.sync_pending hw] at hi
      simp only [List.mem_cons, Effect.store.injEq, reduceCtorEq, List.not_mem_nil,
        or_false] at hi
      omega

/-- If no block of `N` characters is sent, every store is inside the array. -/
theorem Rep.stores_lt {b : OHLogStreamBuf N} {w : BlockWriter UInt8 N} (h : Rep b w)
    (ops : List (BlockWriter.Op UInt8))
    (hblock : ∀ l ∈ (BlockWriter.machine UInt8 N).output w ops, l.length ≠ N) {i : ℕ} {v : UInt8}
    (hi : Effect.store i v ∈ (machine N).output b ops) : i < N := by
  induction ops generalizing b w with
  | nil => cases hi
  | cons op ops ih =>
    rw [Transducer.output_cons] at hi hblock
    rcases List.mem_append.1 hi with hi | hi
    · exact h.store_lt (fun l hl => hblock l (List.mem_append_left _ hl)) hi
    · exact ih (h.run [op]).1 (fun l hl => hblock l (List.mem_append_right _ hl)) hi

/-- A message is a block the writer sends, and the other way round. -/
theorem Rep.exists_print {b : OHLogStreamBuf N} {w : BlockWriter UInt8 N} (h : Rep b w)
    (ops : List (BlockWriter.Op UInt8)) {l : List UInt8} :
    l ∈ (BlockWriter.machine UInt8 N).output w ops ↔
      ∃ m, Effect.print m ∈ (machine N).output b ops ∧ m.raw = l := by
  rw [← (h.run ops).2, ← map_raw_messages]
  simp only [List.mem_map, mem_messages]

/-- **Bounds.** The run stays in the array exactly when no `N` characters are written in a row
without a sync between them. -/
theorem inBounds_iff (hN : 2 ≤ N) (mem : ℕ → UInt8) (level : LogLevel)
    (ops : List (BlockWriter.Op UInt8)) :
    InBounds N ((machine N).output (new N mem level) ops) ↔
      ∀ l : List UInt8, l.map BlockWriter.Op.put <:+: ops → l.length < N := by
  have h := rep_new (show 0 < N by omega) mem level
  have hfull := BlockWriter.full_block_iff (w := .empty (show 0 < N by omega)) rfl ops
  refine ⟨?_, ?_⟩
  · rintro ⟨-, hmsg, -⟩ l hl
    by_contra hge
    obtain ⟨block, hblock, hlen⟩ := hfull.2 ⟨l, hl, by omega⟩
    obtain ⟨m, hm, rfl⟩ := (h.exists_print ops).1 hblock
    have := hmsg m hm
    omega
  · intro hshort
    have hblock : ∀ l ∈ (BlockWriter.machine UInt8 N).output (.empty (show 0 < N by omega)) ops,
        l.length ≠ N := by
      intro l hl hlen
      obtain ⟨l', hl', hge⟩ := hfull.1 ⟨l, hl, hlen⟩
      exact absurd (hshort l' hl') (by omega)
    refine ⟨fun i v => h.stores_lt ops hblock, fun m hm => ?_, h.terminated ops⟩
    -- The terminator is one of the stores.
    obtain ⟨pre, post, hsplit⟩ := List.append_of_mem hm
    obtain ⟨pre', rfl⟩ := h.terminated ops pre m post hsplit
    have hstore : Effect.store m.raw.length 0 ∈ (machine N).output (new N mem level) ops := by
      rw [hsplit]
      simp
    have := h.stores_lt ops hblock hstore
    omega

theorem inBounds_write_sync :
    InBounds 2 ((machine 2).output (new 2 (fun _ => 0) .LOG_INFO) [.put 97, .flush]) := by
  refine (inBounds_iff le_rfl _ _ _).2 fun l hl => ?_
  by_contra hge
  have hle : l.length ≤ 2 := by simpa using hl.length_le
  have heq := hl.eq_of_length (by simp; omega)
  simp [List.map_eq_cons_iff] at heq

/-- The second character written to an `OHLogStreamBuf<2>` puts a terminator at `buffer_[2]`. -/
theorem not_inBounds :
    ¬ ∀ N, 2 ≤ N → ∀ mem level ops, InBounds N ((machine N).output (new N mem level) ops) := by
  intro h
  have := (h 2 le_rfl (fun _ => 0) .LOG_INFO [.put 97, .put 98]).1 2 0 (by decide)
  omega

end OHLogStreamBuf

end OhosWrapper.Logging
