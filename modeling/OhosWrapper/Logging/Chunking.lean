import Mathlib.Data.List.TakeWhile
import OhosWrapper.Logging.StreamBuf

/-!
# Feeding strings to the log buffer

`std::streambuf` may hand a string to the buffer character by character, or `xsputn` may copy
any part of it that fits into the put area and call `overflow` only when the area is full.

**Feeding** (`Feed`). One way of feeding a string, as a derivation: any number of copies of any
sizes, an `overflow` whenever the area is full, and a stop where `overflow` fails.

**Theorem (`chunking`).** However the strings of a run are fed, the messages and the final put
area are the same, the contents of the messages followed by the put area are the bytes written,
and each message prints its contents up to the first NUL.

The proof shows that a derivation is nothing but a sequence of `sputc` calls: a copy of `k`
characters is `k` writes with room for them, and an `overflow` on a full area is what the next
write would do. So every derivation ends in the state of the character machine, with its
effects, and conservation is that of the block writer.
-/

namespace OhosWrapper.Logging

/-- What is done to a stream or its buffer: write a string, or flush (`sync`). -/
inductive StreamOp
  | write (s : List UInt8)
  | flush
  deriving DecidableEq, Repr

namespace StreamOp

/-- The bytes a run writes. -/
def written : List StreamOp → List UInt8
  | [] => []
  | .write s :: ops => s ++ written ops
  | .flush :: ops => written ops

/-- The run character by character. -/
def chars : List StreamOp → List (BlockWriter.Op UInt8)
  | [] => []
  | .write s :: ops => s.map .put ++ chars ops
  | .flush :: ops => .flush :: chars ops

theorem chars_append (as bs : List StreamOp) : chars (as ++ bs) = chars as ++ chars bs := by
  induction as with
  | nil => rfl
  | cons op as ih => cases op <;> simp [chars, ih]

theorem written_append (as bs : List StreamOp) :
    written (as ++ bs) = written as ++ written bs := by
  induction as with
  | nil => rfl
  | cons op as ih => cases op <;> simp [written, ih]

@[simp] theorem written_chars (ops : List StreamOp) :
    BlockWriter.written (chars ops) = written ops := by
  induction ops with
  | nil => rfl
  | cons op ops ih =>
    cases op <;> simp [chars, written, BlockWriter.written, BlockWriter.written_append, ih]

end StreamOp

namespace OHLogStreamBuf

variable {N : ℕ} {b b' : OHLogStreamBuf N} {w : BlockWriter UInt8 N}

/-- `xsputn` copying a chunk into the put area. -/
def pushAll (b : OHLogStreamBuf N) : List UInt8 → OHLogStreamBuf N × List Effect
  | [] => (b, [])
  | c :: cs => (((b.push c).pushAll cs).1, .store b.pptr c :: ((b.push c).pushAll cs).2)

/-- `Feed b s b' es`: feeding `s` to `b` can end in `b'` with the effects `es`. -/
inductive Feed : OHLogStreamBuf N → List UInt8 → OHLogStreamBuf N → List Effect → Prop
  | done (b : OHLogStreamBuf N) : Feed b [] b []
  | copy {b b' : OHLogStreamBuf N} (chunk : List UInt8) {rest : List UInt8} {es : List Effect} :
      chunk ≠ [] → chunk.length ≤ b.epptr - b.pptr → Feed (b.pushAll chunk).1 rest b' es →
      Feed b (chunk ++ rest) b' ((b.pushAll chunk).2 ++ es)
  | overflow {b b' : OHLogStreamBuf N} {c : UInt8} {rest : List UInt8} {es : List Effect} :
      ¬ b.pptr < b.epptr → (b.overflow (toIntType c)).1 ≠ EOF →
      Feed (b.overflow (toIntType c)).2.1 rest b' es →
      Feed b (c :: rest) b' ((b.overflow (toIntType c)).2.2 ++ es)
  | fail {b : OHLogStreamBuf N} {c : UInt8} {rest : List UInt8} :
      ¬ b.pptr < b.epptr → (b.overflow (toIntType c)).1 = EOF →
      Feed b (c :: rest) (b.overflow (toIntType c)).2.1 (b.overflow (toIntType c)).2.2

/-- A run of writes, each fed in some way, and syncs. -/
inductive FeedRun : OHLogStreamBuf N → List StreamOp → OHLogStreamBuf N → List Effect → Prop
  | nil (b : OHLogStreamBuf N) : FeedRun b [] b []
  | write {b b₁ b₂ : OHLogStreamBuf N} {s : List UInt8} {ops : List StreamOp}
      {e₁ e₂ : List Effect} :
      Feed b s b₁ e₁ → FeedRun b₁ ops b₂ e₂ → FeedRun b (.write s :: ops) b₂ (e₁ ++ e₂)
  | flush {b b₂ : OHLogStreamBuf N} {ops : List StreamOp} {e₂ : List Effect} :
      FeedRun b.sync.2.1 ops b₂ e₂ → FeedRun b (.flush :: ops) b₂ (b.sync.2.2 ++ e₂)

/-! ## A feed is a sequence of `sputc` calls -/

theorem step_put (b : OHLogStreamBuf N) (c : UInt8) :
    (machine N).step b (.put c) = (b.sputc c).2 := rfl

theorem sputc_of_room (h : b.pptr < b.epptr) (c : UInt8) :
    (b.sputc c).2 = (b.push c, [.store b.pptr c]) := by
  rw [sputc, if_pos h]

theorem sputc_of_full (h : ¬ b.pptr < b.epptr) (c : UInt8) :
    (b.sputc c).2 = (b.overflow (toIntType c)).2 := by
  rw [sputc, if_neg h]

/-- Copying a chunk that fits is writing its characters one by one. -/
theorem pushAll_eq {chunk : List UInt8} (h : chunk.length ≤ b.epptr - b.pptr) :
    b.pushAll chunk =
      ((machine N).state b (chunk.map .put), (machine N).output b (chunk.map .put)) := by
  induction chunk generalizing b with
  | nil => rfl
  | cons c cs ih =>
    rw [List.length_cons] at h
    have hroom : b.pptr < b.epptr := by omega
    have hrest : cs.length ≤ (b.push c).epptr - (b.push c).pptr := by
      show cs.length ≤ b.epptr - (b.pptr + 1)
      omega
    rw [pushAll, ih hrest, List.map_cons, Transducer.state_cons, Transducer.output_cons,
      step_put, sputc_of_room hroom]
    rfl

/-- **Every feed is the character machine's run.** -/
theorem Feed.eq {s : List UInt8} {es : List Effect} (hf : Feed b s b' es) (h : Rep b w) :
    b' = (machine N).state b (s.map .put) ∧ es = (machine N).output b (s.map .put) := by
  induction hf generalizing w with
  | done b => exact ⟨rfl, rfl⟩
  | copy _ _ hfit _ ih =>
    rw [pushAll_eq hfit] at ih ⊢
    obtain ⟨hb, he⟩ := ih (h.run _).1
    rw [List.map_append, Transducer.state_append, Transducer.output_append]
    exact ⟨hb, by rw [he]⟩
  | @overflow b b' c rest es hfull _ _ ih =>
    have hstep : Rep (b.overflow (toIntType c)).2.1 (w.put c).1 := by
      rw [← sputc_of_full hfull]
      exact (h.sputc c).2.1
    obtain ⟨hb, he⟩ := ih hstep
    rw [List.map_cons, Transducer.state_cons, Transducer.output_cons, step_put,
      sputc_of_full hfull]
    exact ⟨hb, by rw [he]⟩
  | @fail b c rest hfull heof =>
    -- `overflow` returns the character it was given.
    rw [overflow_toIntType (by rw [h.pbase]; omega)] at heof
    exact absurd heof (toIntType_ne_EOF c)

/-- **Writing character by character is a feed.** -/
theorem feed_chars (h : Rep b w) (s : List UInt8) :
    Feed b s ((machine N).state b (s.map .put)) ((machine N).output b (s.map .put)) := by
  induction s generalizing b w with
  | nil => exact .done b
  | cons c cs ih =>
    have hrest := ih (h.sputc c).2.1
    rw [List.map_cons, Transducer.state_cons, Transducer.output_cons, step_put]
    by_cases hroom : b.pptr < b.epptr
    · rw [sputc_of_room hroom] at hrest ⊢
      exact .copy [c] (List.cons_ne_nil _ _) (by simp; omega) hrest
    · rw [sputc_of_full hroom] at hrest ⊢
      refine .overflow hroom ?_ hrest
      rw [overflow_toIntType (by rw [h.pbase]; omega)]
      exact toIntType_ne_EOF c

/-- **Every run is the character machine's run.** -/
theorem FeedRun.eq {ops : List StreamOp} {es : List Effect} (hr : FeedRun b ops b' es)
    (h : Rep b w) :
    b' = (machine N).state b (StreamOp.chars ops) ∧
      es = (machine N).output b (StreamOp.chars ops) := by
  induction hr generalizing w with
  | nil b => exact ⟨rfl, rfl⟩
  | write hf _ ih =>
    obtain ⟨rfl, rfl⟩ := hf.eq h
    obtain ⟨hb, he⟩ := ih (h.run _).1
    rw [StreamOp.chars, Transducer.state_append, Transducer.output_append]
    exact ⟨hb, by rw [he]⟩
  | flush _ ih =>
    obtain ⟨hb, he⟩ := ih h.sync.2.1
    exact ⟨hb, by rw [he]; rfl⟩

/-- Every run of writes and syncs can be fed character by character. -/
theorem feedRun_chars (h : Rep b w) (ops : List StreamOp) :
    FeedRun b ops ((machine N).state b (StreamOp.chars ops))
      ((machine N).output b (StreamOp.chars ops)) := by
  induction ops generalizing b w with
  | nil => exact .nil b
  | cons op ops ih =>
    cases op with
    | write s =>
      rw [StreamOp.chars, Transducer.state_append, Transducer.output_append]
      exact .write (feed_chars h s) (ih (h.run _).1)
    | flush => exact .flush (ih h.sync.2.1)

/-! ## Conservation -/

/-- The contents of the messages and the put area are the bytes written. -/
theorem Rep.conservation (h : Rep b w) (ops : List (BlockWriter.Op UInt8)) :
    ((messages ((machine N).output b ops)).map LogMessage.raw).flatten ++
        ((machine N).state b ops).putArea = w.pending ++ BlockWriter.written ops := by
  rw [map_raw_messages, (h.run ops).2, (h.run ops).1.area,
    BlockWriter.flatten_output_append_pending]

/-- A message without NUL prints as it is. -/
theorem takeWhile_of_not_mem_zero {l : List UInt8} (h : (0 : UInt8) ∉ l) :
    l.takeWhile (· ≠ 0) = l := by
  refine List.takeWhile_eq_self_iff.2 fun c hc => ?_
  simp only [ne_eq, decide_eq_true_eq]
  rintro rfl
  exact h hc

/-- **Conservation and independence of chunking.** From any state reached by a run `hist`, two
ways of feeding the same run `ops` give the same messages and put area, one way being a `sputc`
per character; all the messages so far and the put area are the bytes written since
construction, and each message prints its contents up to the first NUL. -/
theorem chunking (hN : 2 ≤ N) (mem : ℕ → UInt8) (level : LogLevel) {hist ops : List StreamOp}
    {b₁ b₂ : OHLogStreamBuf N} {e e₁ e₂ : List Effect} (hb : FeedRun (new N mem level) hist b e)
    (h₁ : FeedRun b ops b₁ e₁) (h₂ : FeedRun b ops b₂ e₂) :
    FeedRun b ops ((machine N).state b (StreamOp.chars ops))
      ((machine N).output b (StreamOp.chars ops)) ∧
    messages e₁ = messages e₂ ∧ b₁.putArea = b₂.putArea ∧
    ((messages (e ++ e₁)).map LogMessage.raw).flatten ++ b₁.putArea =
      StreamOp.written (hist ++ ops) ∧
    ∀ m ∈ messages (e ++ e₁), m.text = m.raw.takeWhile (· ≠ 0) ∧
      ((0 : UInt8) ∉ StreamOp.written (hist ++ ops) → m.text = m.raw) := by
  have hnew := rep_new (show 0 < N by omega) mem level
  obtain ⟨rfl, rfl⟩ := hb.eq hnew
  have hrep := (hnew.run (StreamOp.chars hist)).1
  obtain ⟨rfl, rfl⟩ := h₁.eq hrep
  obtain ⟨rfl, rfl⟩ := h₂.eq hrep
  have hcons := hnew.conservation (StreamOp.chars hist ++ StreamOp.chars ops)
  rw [Transducer.output_append, Transducer.state_append, BlockWriter.written_append,
    StreamOp.written_chars, StreamOp.written_chars, ← StreamOp.written_append] at hcons
  change _ = StreamOp.written (hist ++ ops) at hcons
  refine ⟨feedRun_chars hrep ops, rfl, rfl, hcons, ?_⟩
  intro m hm
  have htext : m.text = m.raw.takeWhile (· ≠ 0) := by
    rw [mem_messages, ← Transducer.output_append] at hm
    exact hnew.print _ hm
  refine ⟨htext, fun hnul => ?_⟩
  rw [htext]
  refine takeWhile_of_not_mem_zero fun h0 => hnul ?_
  have hflat : (0 : UInt8) ∈ ((messages _).map LogMessage.raw).flatten :=
    List.mem_flatten_of_mem (List.mem_map_of_mem hm) h0
  have hmem := List.mem_append_left ((machine N).state
    ((machine N).state (new N mem level) (StreamOp.chars hist)) (StreamOp.chars ops)).putArea hflat
  rwa [hcons] at hmem

/-- Three bytes into an `OHLogStreamBuf<2>` by a copy, an overflow and another copy. -/
theorem chunking_copy_overflow_copy :
    ∃ b₁ e₁, FeedRun (new 2 (fun _ => 0) .LOG_INFO) [.write [7, 8, 9]] b₁ e₁ ∧
      messages e₁ = messages ((machine 2).output (new 2 (fun _ => 0) .LOG_INFO)
        (StreamOp.chars [.write [7, 8, 9]])) := by
  have hbulk : FeedRun (new 2 (fun _ => 0) .LOG_INFO) [.write [7, 8, 9]] _ _ :=
    .write (.copy [7] (by decide) (by decide)
      (.overflow (by decide) (by decide)
        (.copy [9] (by decide) (by decide) (.done _)))) (.nil _)
  have hchars := feedRun_chars (rep_new (N := 2) (by decide) (fun _ => 0) .LOG_INFO)
    [.write [7, 8, 9]]
  exact ⟨_, _, hbulk, (chunking le_rfl _ _ (.nil _) hbulk hchars).2.1⟩

end OHLogStreamBuf

end OhosWrapper.Logging
