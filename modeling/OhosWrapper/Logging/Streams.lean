import OhosWrapper.Logging.Bounds
import OhosWrapper.Logging.Ostream

/-!
# What the streams print

`Ostream.delivered_iff` says when a stream delivers its text. This module says what it prints in
every run, and what the three streams of the library print side by side.

**Every run (`output_exact`).** The text between two flushes is printed in blocks of `N` characters
and a last one that may be shorter. A flush with nothing pending ends it: what is inserted after
that is not printed. As everywhere in these modules, a terminator that is stored at `buffer_[N]` is
taken to leave the printed text alone.

**Three streams (`standard_streams`).** `cout`, `cerr` and `clog` have a buffer each, and levels of
their own. However a program mixes its operations on them, the messages at one level are the texts
between the flushes of one stream, as long as no text fills a buffer, the one after the last flush
included.
-/

namespace OhosWrapper.Logging

open BlockWriter (fullBlocks rest blocks)

/-! ## Messages of the buffer -/

namespace OHLogStreamBuf

variable {N : ℕ} {b : OHLogStreamBuf N} {w : BlockWriter UInt8 N}

theorem sync_level (b : OHLogStreamBuf N) : b.sync.2.1.level_ = b.level_ := by
  by_cases h : 0 < b.pptr - b.pbase
  · rw [sync_of_pos h]
    rfl
  · rw [sync_of_empty (by omega)]

theorem step_level (b : OHLogStreamBuf N) (op : BlockWriter.Op UInt8) :
    ((machine N).step b op).1.level_ = b.level_ := by
  cases op with
  | put c =>
    change (b.sputc c).2.1.level_ = b.level_
    rw [sputc]
    split_ifs
    · rfl
    · simp only [overflow]
      split_ifs <;> exact sync_level _
  | flush => exact sync_level b

theorem state_level (b : OHLogStreamBuf N) (ops : List (BlockWriter.Op UInt8)) :
    ((machine N).state b ops).level_ = b.level_ := by
  induction ops generalizing b with
  | nil => rfl
  | cons op ops ih => rw [Transducer.state_cons, ih, step_level]

/-- A message has the level of the buffer. -/
theorem Rep.print_level (h : Rep b w) (ops : List (BlockWriter.Op UInt8)) {m : LogMessage}
    (hm : Effect.print m ∈ (machine N).output b ops) : m.level = b.level_ := by
  induction ops generalizing b w with
  | nil => cases hm
  | cons op ops ih =>
    rw [Transducer.output_cons] at hm
    rcases List.mem_append.1 hm with hm | hm
    · exact (h.step_print hm).1
    · exact (ih (h.run [op]).1 hm).trans (step_level b op)

/-- The messages are the blocks the writer sends. -/
theorem Rep.messages_eq (h : Rep b w) (ops : List (BlockWriter.Op UInt8)) :
    messages ((machine N).output b ops) =
      ((BlockWriter.machine UInt8 N).output w ops).map (.of b.level_) := by
  rw [← (h.run ops).2, ← map_raw_messages, List.map_map]
  refine (List.map_congr_left fun m hm => ?_).trans (List.map_id _) |>.symm
  rw [mem_messages] at hm
  rw [Function.comp_apply, LogMessage.of, ← h.print ops hm, ← h.print_level ops hm, id]

end OHLogStreamBuf

/-! ## Every run of a stream -/

theorem messages_append (es es' : List Effect) :
    messages (es ++ es') = messages es ++ messages es' := by
  induction es with
  | nil => rfl
  | cons e es ih => cases e <;> simp [messages, ih]

/-- What a stream prints, if `t` was inserted since the last flush. -/
def printed (N : ℕ) (t : List UInt8) : List StreamOp → List (List UInt8)
  | [] => fullBlocks N t
  | .write s :: ops => printed N (t ++ s) ops
  | .flush :: ops => if N ∣ t.length then fullBlocks N t else blocks N t ++ printed N [] ops

namespace Ostream

variable {N : ℕ}

/-- A broken stream with an empty buffer prints nothing any more. -/
theorem output_of_not_good {s : Ostream N} {w : BlockWriter UInt8 N} (hgood : s.good = false)
    (h : OHLogStreamBuf.Rep s.rdbuf w) (hw : w.pending = []) (ops : List StreamOp) :
    (machine N).output s ops = [] := by
  induction ops generalizing s with
  | nil => rfl
  | cons op ops ih =>
    rw [Transducer.output_cons]
    have hnext := step_of_not_good hgood op
    cases op with
    | write text =>
      have hstep : (machine N).step s (.write text) = (s, []) := insert_of_not_good hgood text
      rw [hstep, List.nil_append, ih hgood h]
    | flush =>
      have hempty : s.rdbuf.sync = (-1, s.rdbuf, []) := by
        apply OHLogStreamBuf.sync_of_empty
        rw [h.pptr, hw, h.pbase]
        rfl
      have hrdbuf : ((machine N).step s .flush).1.rdbuf = s.rdbuf := by
        change s.rdbuf.sync.2.1 = s.rdbuf
        rw [hempty]
      have hout : ((machine N).step s .flush).2 = [] := by
        change s.rdbuf.sync.2.2 = []
        rw [hempty]
      rw [hout, List.nil_append, ih hnext (hrdbuf ▸ h)]

/-- The messages of a good stream, after those for the text `t` since the last flush. -/
theorem messages_ofBuf (hN : 0 < N) {b : OHLogStreamBuf N} {t : List UInt8}
    (h : OHLogStreamBuf.Rep b ((BlockWriter.machine UInt8 N).state (.empty hN) (t.map .put)))
    (ops : List StreamOp) :
    (fullBlocks N t).map (.of b.level_) ++ messages ((machine N).output (ofBuf b) ops) =
      (printed N t ops).map (.of b.level_) := by
  induction ops generalizing b t with
  | nil => exact List.append_nil _
  | cons op ops ih =>
    rw [Transducer.output_cons, messages_append, ← List.append_assoc]
    cases op with
    | write text =>
      have hputs := (BlockWriter.puts hN (t ++ text)).1
      rw [List.map_append, Transducer.output_append, (BlockWriter.puts hN t).1] at hputs
      have hstep : (machine N).step (ofBuf b) (.write text) = _ := insert_ofBuf h text
      have hrun := (h.run (text.map .put)).1
      rw [← Transducer.state_append, ← List.map_append] at hrun
      have hrest := ih hrun
      rw [OHLogStreamBuf.state_level] at hrest
      rw [hstep, h.messages_eq, ← List.map_append, hputs, hrest]
      rfl
    | flush =>
      obtain ⟨hret, hrun, -⟩ := h.sync
      have hstep : (machine N).step (ofBuf b) .flush = _ := flush_ofBuf h
      have hmessages := h.messages_eq [.flush]
      rw [Transducer.output_cons, Transducer.output_cons, Transducer.output_nil,
        Transducer.output_nil, List.append_nil, List.append_nil] at hmessages
      change messages b.sync.2.2 = (BlockWriter.flush _).2.map _ at hmessages
      rw [hstep, hmessages]
      have hpending := (BlockWriter.puts hN t).2
      obtain ⟨hempty, ⟨hnil, hsent⟩ | ⟨hnil, hsent⟩⟩ := BlockWriter.flush_cases
        ((BlockWriter.machine UInt8 N).state (.empty hN) (t.map .put))
      · -- Nothing is pending, and the stream breaks.
        have hdvd : N ∣ t.length := by rwa [← BlockWriter.rest_eq_nil_iff, ← hpending]
        rw [decide_eq_true hnil, output_of_not_good rfl hrun hempty, hsent, printed, if_pos hdvd]
        simp [messages]
      · have hdvd : ¬ N ∣ t.length := by rwa [← BlockWriter.rest_eq_nil_iff, ← hpending]
        have hrest := ih (b := b.sync.2.1) (t := []) ?_
        · rw [OHLogStreamBuf.sync_level, BlockWriter.fullBlocks_nil, List.map_nil,
            List.nil_append] at hrest
          rw [decide_eq_false hnil, hsent, hpending, printed, if_neg hdvd, List.map_append,
            ← hrest, blocks, if_neg (mt BlockWriter.rest_eq_nil_iff.1 hdvd), List.map_append]
          rfl
        · have hw : (BlockWriter.flush ((BlockWriter.machine UInt8 N).state (.empty hN)
              (t.map .put))).1 = .empty hN := BlockWriter.ext hempty
          rw [hw] at hrun
          exact hrun

/-- **What is printed.** After every run of insertions and flushes, the contents and the texts of
the messages are known from the operations. -/
theorem output_exact (hN : 0 < N) (mem : ℕ → UInt8) (level : LogLevel) (ops : List StreamOp) :
    (messages ((machine N).output (new N mem level) ops)).map (fun m => (m.raw, m.text)) =
      (printed N [] ops).map fun raw => (raw, raw.takeWhile (· ≠ 0)) := by
  have hrun := messages_ofBuf (t := []) hN (OHLogStreamBuf.rep_new hN mem level) ops
  rw [BlockWriter.fullBlocks_nil, List.map_nil, List.nil_append] at hrun
  change messages ((machine N).output (new N mem level) ops) = _ at hrun
  rw [hrun, List.map_map]
  rfl

/-- A text with a NUL, a flush of the empty buffer, and a text that is lost. -/
theorem output_exact_lost_text :
    (messages ((machine 4).output (new 4 (fun _ => 0) .LOG_INFO)
      [.write [72, 0, 105], .flush, .flush, .write [33, 33]])).map (fun m => (m.raw, m.text)) =
      [([72, 0, 105], [72])] :=
  (output_exact (by decide) _ _ _).trans (by decide)

end Ostream

/-! ## `cout`, `cerr` and `clog` -/

/-- The texts between the flushes, if `t` was inserted since the last one. A flush with no text
before it ends them. -/
def lines (t : List UInt8) : List StreamOp → List (List UInt8)
  | [] => []
  | .write s :: ops => lines (t ++ s) ops
  | .flush :: ops => if t = [] then [] else t :: lines [] ops

/-- Texts that do not fill a buffer are printed as they are. -/
theorem printed_eq_lines {N : ℕ} {p ops : List StreamOp} {t : List UInt8}
    (ht : charsSinceFlush p = t.length)
    (hshort : ∀ pre, pre <+: ops → charsSinceFlush (p ++ pre) < N) :
    printed N t ops = lines t ops := by
  induction ops generalizing p t with
  | nil =>
    have hlt := hshort [] List.nil_prefix
    rw [List.append_nil, ht] at hlt
    exact (BlockWriter.blocks_of_lt hlt).1
  | cons op ops ih =>
    have hlt := hshort [] List.nil_prefix
    rw [List.append_nil, ht] at hlt
    have hnext : ∀ pre, pre <+: ops → charsSinceFlush ((p ++ [op]) ++ pre) < N := by
      intro pre hpre
      rw [List.append_assoc]
      exact hshort (op :: pre) (List.cons_prefix_cons.2 ⟨rfl, hpre⟩)
    cases op with
    | write s =>
      refine ih (p := p ++ [.write s]) ?_ hnext
      rw [Ostream.charsSinceFlush_concat_write, ht, List.length_append]
    | flush =>
      have hrest := ih (p := p ++ [.flush]) (t := [])
        (Ostream.charsSinceFlush_concat_flush p) hnext
      obtain ⟨hfull, hblocks⟩ := BlockWriter.blocks_of_lt hlt
      have hdvd : N ∣ t.length ↔ t = [] := by
        refine ⟨fun h => ?_, fun h => by rw [h]; exact Nat.dvd_zero N⟩
        exact List.length_eq_zero_iff.1 (Nat.eq_zero_of_dvd_of_lt h hlt)
      rw [printed, lines, hrest, hfull, hblocks]
      by_cases hnil : t = []
      · rw [if_pos (hdvd.2 hnil), if_pos hnil]
      · rw [if_neg (mt hdvd.1 hnil), if_neg hnil, if_neg hnil]
        rfl

inductive StandardStream
  | cout
  | cerr
  | clog
  deriving DecidableEq, Repr

namespace StandardStream

def level : StandardStream → LogLevel
  | cout => .LOG_INFO
  | cerr => .LOG_ERROR
  | clog => .LOG_WARN

theorem level_injective : Function.Injective level := by
  intro k k' h
  cases k <;> cases k' <;> first | rfl | cases h

/-- The streams with their buffers, which have `HILOGPP_STREAMBUF_SIZE` cells. -/
def new (N : ℕ) (mem : StandardStream → ℕ → UInt8) (k : StandardStream) : Ostream N :=
  .new N (mem k) k.level

def machine (N : ℕ) : Transducer (StandardStream → Ostream N) (StandardStream × StreamOp)
    (StandardStream × Effect) :=
  .family fun _ => Ostream.machine N

/-- The log of a program. -/
def log (N : ℕ) (mem : StandardStream → ℕ → UInt8) (ops : List (StandardStream × StreamOp)) :
    List LogMessage :=
  messages (((machine N).output (new N mem) ops).map Prod.snd)

/-- Messages with the level of a stream are those of the stream. -/
theorem filter_messages {es : List (StandardStream × Effect)}
    (h : ∀ k m, (k, Effect.print m) ∈ es → m.level = k.level) (k : StandardStream) :
    (messages (es.map Prod.snd)).filter (fun m => m.level = k.level) =
      messages (Transducer.only k es) := by
  induction es with
  | nil => rfl
  | cons e es ih =>
    obtain ⟨k', e⟩ := e
    have hrest := ih fun k m hm => h k m (List.mem_cons_of_mem _ hm)
    cases e with
    | store i v =>
      rw [List.map_cons, messages, hrest]
      by_cases hk : k' = k
      · subst hk
        rw [Transducer.only_cons_self, messages]
      · rw [Transducer.only_cons_of_ne hk]
    | print m =>
      have hm := h k' m List.mem_cons_self
      rw [List.map_cons, messages, List.filter_cons, hrest, hm]
      by_cases hk : k' = k
      · subst hk
        rw [Transducer.only_cons_self, messages, if_pos (by simp)]
      · rw [Transducer.only_cons_of_ne hk, if_neg (by simpa using level_injective.ne hk)]

/-- **Three streams.** If a program never puts `N` characters or more into one of the streams
without a flush of it in between, not after its last flush either, the messages at the level of a
stream are the texts between the flushes of that stream, whatever is done to the others in
between. -/
theorem standard_streams {N : ℕ} (mem : StandardStream → ℕ → UInt8)
    {ops : List (StandardStream × StreamOp)}
    (hshort : ∀ k pre, pre <+: Transducer.only k ops → charsSinceFlush pre < N)
    (k : StandardStream) :
    (log N mem ops).filter (fun m => m.level = k.level) =
      (lines [] (Transducer.only k ops)).map (.of k.level) := by
  have hN : 0 < N := Nat.zero_lt_of_lt (hshort k [] List.nil_prefix)
  have hmessages : ∀ k, messages (Transducer.only k ((machine N).output (new N mem) ops)) =
      (lines [] (Transducer.only k ops)).map (.of k.level) := by
    intro k
    have hrun := (Transducer.family_run (fun _ => Ostream.machine N) (new N mem) ops k).2
    have hbuf := Ostream.messages_ofBuf (t := []) hN
      (OHLogStreamBuf.rep_new hN (mem k) k.level) (Transducer.only k ops)
    rw [BlockWriter.fullBlocks_nil, List.map_nil, List.nil_append,
      printed_eq_lines (p := []) rfl (hshort k)] at hbuf
    exact (congrArg messages hrun).trans hbuf
  rw [log, filter_messages, hmessages]
  intro k' m hm
  have hmem := mem_messages.2 (Transducer.mem_only.2 hm)
  rw [hmessages] at hmem
  obtain ⟨raw, -, rfl⟩ := List.mem_map.1 hmem
  rfl

/-- The instance at two streams that are used in turns. -/
theorem standard_streams_in_turns :
    (log 4 (fun _ _ => 0) [(.cout, .write [72]), (.cerr, .write [33]), (.cout, .write [105]),
      (.cerr, .flush), (.cout, .flush)]).filter (fun m => m.level = .LOG_INFO) =
      [⟨.LOG_INFO, [72, 105], [72, 105]⟩] := by
  refine (standard_streams (fun _ _ => 0) (fun k pre hpre => ?_) .cout).trans (by decide)
  rw [← List.mem_inits] at hpre
  revert pre
  cases k <;> decide

end StandardStream

end OhosWrapper.Logging
