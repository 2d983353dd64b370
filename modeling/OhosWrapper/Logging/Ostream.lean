import OhosWrapper.Logging.Chunking

/-!
# The streams `OHOS::cout`, `cerr` and `clog`

A `std::ostream` over an `OHLogStreamBuf<N>`. Of `std::ostream` this uses: an inserter hands
characters to the buffer only while the stream is good and records a failure when it gets `EOF`
back; `flush` (also through `std::endl` or `unitbuf`) calls `pubsync` and sets `badbit` when
that returns `-1`. The state bits are sticky.

`sync` returns `-1` when there is nothing to flush, so a flush of an empty buffer breaks the
stream, and everything inserted afterwards is dropped. The buffer is empty at the start, after a
flush, and after every block of `N` characters, which `overflow` flushes on its own.

**Theorem (`delivered_iff`).** A run that ends with a flush leaves the stream good and delivers
its text exactly when, at every flush, the number of characters inserted since the previous one
is not a multiple of `N`. Runs in which a text fills the buffer are among these: the terminator that
then goes to `buffer_[N]` is taken to leave the printed text alone.
-/

namespace OhosWrapper.Logging

/-- A stream and its buffer; `eofbit` plays no part in output. -/
structure Ostream (N : ℕ) where
  rdbuf : OHLogStreamBuf N
  badbit : Bool
  failbit : Bool

/-- The number of characters inserted since the last flush. -/
def charsSinceFlush : List StreamOp → ℕ :=
  List.foldl (fun k op => match op with | .write s => k + s.length | .flush => 0) 0

/-- At every flush, the number of characters since the previous one is not a multiple of `N`. -/
def NoEmptyFlush (N : ℕ) (ops : List StreamOp) : Prop :=
  ∀ pre post, ops = pre ++ .flush :: post → ¬ N ∣ charsSinceFlush pre

namespace Ostream

variable {N : ℕ}

/-- `std::ostream cout(&coutLogBuf)`, with the buffer freshly constructed. -/
def new (N : ℕ) (mem : ℕ → UInt8) (level : LogLevel) : Ostream N where
  rdbuf := .new N mem level
  badbit := false
  failbit := false

def good (s : Ostream N) : Bool := !s.badbit && !s.failbit

/-- An inserter handing over one character. -/
def insertChar (s : Ostream N) (c : UInt8) : Ostream N × List Effect :=
  if s.good then
    let put := s.rdbuf.sputc c
    ({ s with rdbuf := put.2.1, badbit := s.badbit || put.1 == EOF }, put.2.2)
  else
    (s, [])

def insert (s : Ostream N) : List UInt8 → Ostream N × List Effect
  | [] => (s, [])
  | c :: cs =>
    (((s.insertChar c).1.insert cs).1, (s.insertChar c).2 ++ ((s.insertChar c).1.insert cs).2)

def flush (s : Ostream N) : Ostream N × List Effect :=
  let synced := s.rdbuf.sync
  ({ s with rdbuf := synced.2.1, badbit := s.badbit || synced.1 == -1 }, synced.2.2)

def machine (N : ℕ) : Transducer (Ostream N) StreamOp Effect where
  step s
    | .write text => s.insert text
    | .flush => s.flush

/-- The stream is good and the messages, printed one after the other, are the inserted text. -/
def Delivered (N : ℕ) (mem : ℕ → UInt8) (level : LogLevel) (ops : List StreamOp) : Prop :=
  ((machine N).state (new N mem level) ops).good = true ∧
  ((messages ((machine N).output (new N mem level) ops)).map LogMessage.text).flatten =
    StreamOp.written ops

/-! ## Characters since the last flush -/

@[simp] theorem charsSinceFlush_concat_write (ops : List StreamOp) (s : List UInt8) :
    charsSinceFlush (ops ++ [.write s]) = charsSinceFlush ops + s.length := by
  simp [charsSinceFlush]

@[simp] theorem charsSinceFlush_concat_flush (ops : List StreamOp) :
    charsSinceFlush (ops ++ [.flush]) = 0 := by
  simp [charsSinceFlush]

theorem sinceFlush_append_map_put (ops : List (BlockWriter.Op UInt8)) (s : List UInt8) :
    BlockWriter.sinceFlush (ops ++ s.map .put) = BlockWriter.sinceFlush ops + s.length := by
  induction s using List.reverseRecOn with
  | nil => simp
  | append_singleton s c ih =>
    rw [List.map_append, ← List.append_assoc, List.map_singleton,
      BlockWriter.sinceFlush_concat_put, ih, List.length_append, List.length_singleton,
      Nat.add_assoc]

theorem sinceFlush_chars (ops : List StreamOp) :
    BlockWriter.sinceFlush (StreamOp.chars ops) = charsSinceFlush ops := by
  induction ops using List.reverseRecOn with
  | nil => rfl
  | append_singleton ops op ih =>
    rw [StreamOp.chars_append]
    cases op with
    | write s =>
      rw [charsSinceFlush_concat_write, ← ih]
      simpa [StreamOp.chars] using sinceFlush_append_map_put (StreamOp.chars ops) s
    | flush =>
      rw [charsSinceFlush_concat_flush]
      exact BlockWriter.sinceFlush_concat_flush _

theorem noEmptyFlush_concat {ops : List StreamOp} {op : StreamOp} :
    NoEmptyFlush N (ops ++ [op]) ↔
      NoEmptyFlush N ops ∧ (op = .flush → ¬ N ∣ charsSinceFlush ops) := by
  refine ⟨?_, ?_⟩
  · intro h
    refine ⟨fun pre post hops => ?_, fun hop => ?_⟩
    · exact h pre (post ++ [op]) (by rw [hops]; simp)
    · subst hop
      exact h ops [] rfl
  · intro h pre post hops
    obtain ⟨hpre, hlast⟩ := h
    rcases List.eq_nil_or_concat post with rfl | ⟨post, op', rfl⟩
    · obtain ⟨rfl, hop⟩ := List.append_inj' hops rfl
      exact hlast (List.singleton_inj.1 hop)
    · apply hpre pre post
      rw [List.concat_eq_append, ← List.cons_append, ← List.append_assoc] at hops
      exact (List.append_inj' hops rfl).1

theorem noEmptyFlush_concat_write {ops : List StreamOp} {s : List UInt8} :
    NoEmptyFlush N (ops ++ [.write s]) ↔ NoEmptyFlush N ops := by
  simp [noEmptyFlush_concat]

theorem noEmptyFlush_concat_flush {ops : List StreamOp} :
    NoEmptyFlush N (ops ++ [.flush]) ↔ NoEmptyFlush N ops ∧ ¬ N ∣ charsSinceFlush ops := by
  simp [noEmptyFlush_concat]

/-! ## Steps of a good and of a bad stream -/

/-- The buffer of a good stream, with no bit set. -/
def ofBuf (b : OHLogStreamBuf N) : Ostream N := ⟨b, false, false⟩

/-- Inserting into a good stream writes the characters to the buffer and leaves it good. -/
theorem insert_ofBuf {b : OHLogStreamBuf N} {w : BlockWriter UInt8 N}
    (h : OHLogStreamBuf.Rep b w) (text : List UInt8) :
    (ofBuf b).insert text = (ofBuf ((OHLogStreamBuf.machine N).state b (text.map .put)),
      (OHLogStreamBuf.machine N).output b (text.map .put)) := by
  induction text generalizing b w with
  | nil => rfl
  | cons c cs ih =>
    obtain ⟨hret, hrep, -⟩ := h.sputc c
    have hchar : (ofBuf b).insertChar c = (ofBuf (b.sputc c).2.1, (b.sputc c).2.2) := by
      simp [insertChar, ofBuf, good, hret, toIntType_ne_EOF]
    rw [insert, hchar, ih hrep]
    rfl

/-- A flush keeps a good stream good exactly when something is pending. -/
theorem flush_ofBuf {b : OHLogStreamBuf N} {w : BlockWriter UInt8 N}
    (h : OHLogStreamBuf.Rep b w) :
    (ofBuf b).flush = (⟨b.sync.2.1, decide (w.pending = []), false⟩, b.sync.2.2) := by
  simp only [flush, ofBuf, h.sync.1, Bool.false_or]
  split_ifs with hw <;> simp [hw]

theorem insert_of_not_good {s : Ostream N} (h : s.good = false) (text : List UInt8) :
    s.insert text = (s, []) := by
  induction text with
  | nil => rfl
  | cons c cs ih =>
    have hchar : s.insertChar c = (s, []) := by simp [insertChar, h]
    rw [insert, hchar, ih]
    rfl

/-- A stream that is not good stays so. -/
theorem step_of_not_good {s : Ostream N} (h : s.good = false) (op : StreamOp) :
    ((machine N).step s op).1.good = false := by
  cases op with
  | write text =>
    show (s.insert text).1.good = false
    rw [insert_of_not_good h]
    exact h
  | flush =>
    simp only [machine, flush, good] at h ⊢
    cases hb : s.badbit <;> simp_all

/-! ## Runs -/

/-- As long as no flush finds the buffer empty, the stream stays good and does what its buffer
does; the first flush that does breaks it for good. -/
theorem run_of_noEmptyFlush (hN : 0 < N) (mem : ℕ → UInt8) (level : LogLevel)
    (ops : List StreamOp) :
    (NoEmptyFlush N ops →
      (machine N).state (new N mem level) ops =
        ofBuf ((OHLogStreamBuf.machine N).state (.new N mem level) (StreamOp.chars ops)) ∧
      (machine N).output (new N mem level) ops =
        (OHLogStreamBuf.machine N).output (.new N mem level) (StreamOp.chars ops)) ∧
    (¬ NoEmptyFlush N ops → ((machine N).state (new N mem level) ops).good = false) := by
  have hnew := OHLogStreamBuf.rep_new hN mem level
  induction ops using List.reverseRecOn with
  | nil =>
    refine ⟨fun _ => ⟨rfl, rfl⟩, fun h => absurd ?_ h⟩
    intro pre post hops
    simp at hops
  | append_singleton ops op ih =>
    obtain ⟨ihgood, ihbad⟩ := ih
    have hrep := (hnew.run (StreamOp.chars ops)).1
    rw [Transducer.state_concat, Transducer.output_concat, StreamOp.chars_append,
      Transducer.state_append, Transducer.output_append]
    cases op with
    | write text =>
      rw [noEmptyFlush_concat_write]
      refine ⟨fun h => ?_, fun h => step_of_not_good (ihbad h) _⟩
      obtain ⟨hs, he⟩ := ihgood h
      rw [hs, he]
      show ((ofBuf _).insert text).1 = _ ∧ _ ++ ((ofBuf _).insert text).2 = _
      rw [insert_ofBuf hrep]
      simp [StreamOp.chars]
    | flush =>
      rw [noEmptyFlush_concat_flush]
      -- The fill level at the flush decides what `sync` returns.
      have hfill := BlockWriter.length_pending (.empty hN) rfl (StreamOp.chars ops)
      rw [sinceFlush_chars] at hfill
      have hpending : ((BlockWriter.machine UInt8 N).state (.empty hN)
          (StreamOp.chars ops)).pending = [] ↔ N ∣ charsSinceFlush ops := by
        rw [← List.length_eq_zero_iff, hfill, Nat.dvd_iff_mod_eq_zero]
      refine ⟨?_, ?_⟩
      · intro h
        obtain ⟨h, hlast⟩ := h
        obtain ⟨hs, he⟩ := ihgood h
        rw [hs, he]
        show (ofBuf _).flush.1 = _ ∧ _ ++ (ofBuf _).flush.2 = _
        rw [flush_ofBuf hrep, decide_eq_false (mt hpending.1 hlast)]
        exact ⟨rfl, by simp [StreamOp.chars, OHLogStreamBuf.machine]⟩
      · intro h
        by_cases hops : NoEmptyFlush N ops
        · rw [(ihgood hops).1]
          show (ofBuf _).flush.1.good = false
          rw [flush_ofBuf hrep, decide_eq_true (hpending.2 (by tauto))]
          rfl
        · exact step_of_not_good (ihbad hops) _

/-- **Delivery.** A run of NUL-free insertions and flushes that ends with a flush leaves the
stream good and delivers the inserted text exactly when no flush finds the buffer empty. -/
theorem delivered_iff (hN : 2 ≤ N) (mem : ℕ → UInt8) (level : LogLevel) (ops : List StreamOp)
    (hnul : (0 : UInt8) ∉ StreamOp.written ops) :
    Delivered N mem level (ops ++ [.flush]) ↔ NoEmptyFlush N (ops ++ [.flush]) := by
  have hpos : 0 < N := by omega
  have hnew := OHLogStreamBuf.rep_new hpos mem level
  refine ⟨?_, ?_⟩
  · intro h
    obtain ⟨hgood, -⟩ := h
    by_contra h
    rw [(run_of_noEmptyFlush hpos mem level _).2 h] at hgood
    cases hgood
  · intro h
    obtain ⟨hs, he⟩ := (run_of_noEmptyFlush hpos mem level _).1 h
    refine ⟨by rw [hs]; rfl, ?_⟩
    rw [he]
    have hwritten : StreamOp.written (ops ++ [.flush]) = StreamOp.written ops := by
      simp [StreamOp.written_append, StreamOp.written]
    -- Nothing is pending after the last flush.
    have harea : ((OHLogStreamBuf.machine N).state (.new N mem level)
        (StreamOp.chars (ops ++ [.flush]))).putArea = [] := by
      rw [(hnew.run _).1.area, StreamOp.chars_append]
      show ((BlockWriter.machine UInt8 N).state _ (StreamOp.chars ops ++ [.flush])).pending = []
      rw [Transducer.state_concat]
      exact (BlockWriter.flush_cases _).1
    have hcons := hnew.conservation (StreamOp.chars (ops ++ [.flush]))
    rw [harea, List.append_nil, StreamOp.written_chars] at hcons
    change _ = StreamOp.written (ops ++ [.flush]) at hcons
    have htext : ∀ m ∈ messages ((OHLogStreamBuf.machine N).output (.new N mem level)
        (StreamOp.chars (ops ++ [.flush]))), m.text = m.raw := by
      intro m hm
      rw [hnew.print _ (mem_messages.1 hm)]
      refine OHLogStreamBuf.takeWhile_of_not_mem_zero fun h0 => hnul ?_
      rw [← hwritten, ← hcons]
      exact List.mem_flatten_of_mem (List.mem_map_of_mem hm) h0
    rw [List.map_congr_left htext, hcons]

/-- Two texts and two flushes through a buffer of four cells. -/
theorem delivered_two_texts :
    Delivered 4 (fun _ => 0) .LOG_INFO
      ([.write [72, 105, 33], .flush, .write [33]] ++ [.flush]) := by
  refine (delivered_iff (by decide) _ _ _ (by decide)).2 ?_
  intro pre post hops
  match pre with
  | [] => simp at hops
  | [.write s] =>
    simp only [List.cons_append, List.nil_append, List.cons.injEq, StreamOp.write.injEq] at hops
    obtain ⟨rfl, -⟩ := hops
    decide
  | [_, _] => simp at hops
  | [_, _, .write s] =>
    simp only [List.cons_append, List.nil_append, List.cons.injEq, StreamOp.write.injEq] at hops
    obtain ⟨rfl, rfl, rfl, -⟩ := hops
    decide
  | _ :: _ :: _ :: _ :: pre => simp at hops

/-- A flush of the empty buffer loses everything inserted afterwards. -/
theorem not_delivered :
    ¬ ∀ N, 2 ≤ N → ∀ mem level ops, (0 : UInt8) ∉ StreamOp.written ops →
      Delivered N mem level (ops ++ [.flush]) := by
  intro h
  have := (h 2 le_rfl (fun _ => 0) .LOG_INFO [.flush, .write [33]] (by decide)).1
  exact absurd this (by decide)

end Ostream

end OhosWrapper.Logging
