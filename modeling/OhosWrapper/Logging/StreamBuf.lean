import Mathlib.Data.List.Basic
import Mathlib.Logic.Function.Basic
import OhosWrapper.Lib.BlockWriter

/-!
# The log buffer `OHLogStreamBuf<N>`

The stream buffer behind `OHOS::cout`, `cerr` and `clog` collects characters in an array of `N`
cells and hands them to `OH_LOG_Print` when `sync` runs or the put area is full.

**Memory.** `buffer_` is the storage from `buffer_.begin()` on. Cells `0 … N - 1` are the array
and the cells from `N` on are whatever follows it, so a store past the end is visible as a store
at an index `≥ N`. What such a store does to `level_`, declared right after the array, depends
on the layout and is not modelled: the cell at `N` is taken to keep what was stored to it until it
is read, so the text that is printed is the same as if the array were longer.

**Effects.** A call returns its C++ result, the new buffer, and the effects it had in order: the
cells it stored to, with the values, and the messages it handed to `OH_LOG_Print`.

**Refinement** (`Rep`). The buffer does what a block writer of block size `N` does: the put area
is the writer's pending block and the messages are the blocks it sends. The block size is `N`
and not `N - 1`, because `overflow` stores one more character before it calls `sync`.
-/

namespace OhosWrapper.Logging

inductive LogLevel
  | LOG_DEBUG
  | LOG_INFO
  | LOG_WARN
  | LOG_ERROR
  | LOG_FATAL
  deriving DecidableEq, Repr

/-- The value `overflow` returns on failure. -/
def EOF : ℤ := -1

/-- `traits_type::to_int_type`. -/
def toIntType (c : UInt8) : ℤ := c.toNat

/-- One call of `OH_LOG_Print`: the level, the contents `[pbase, pptr)` that were flushed, and
the text `"%{public}s"` prints for the pointer `pbase`. -/
structure LogMessage where
  level : LogLevel
  raw : List UInt8
  text : List UInt8
  deriving DecidableEq, Repr

/-- What is printed for the characters `raw`: `"%{public}s"` stops at the first NUL. -/
def LogMessage.of (level : LogLevel) (raw : List UInt8) : LogMessage :=
  ⟨level, raw, raw.takeWhile (· ≠ 0)⟩

/-- What a call does outside its own pointers. -/
inductive Effect
  | store (i : ℕ) (v : UInt8)
  | print (m : LogMessage)
  deriving DecidableEq, Repr

/-- `OHLogStreamBuf<N>`; the pointers are offsets from `buffer_.begin()`. -/
structure OHLogStreamBuf (N : ℕ) where
  buffer_ : ℕ → UInt8
  level_ : LogLevel
  pbase : ℕ
  pptr : ℕ
  epptr : ℕ

/-- The cells a `%s` argument reads: from `p` up to the first NUL, among `fuel` cells. -/
def cString (mem : ℕ → UInt8) (p : ℕ) : ℕ → List UInt8
  | 0 => []
  | fuel + 1 => if mem p = 0 then [] else mem p :: cString mem (p + 1) fuel

namespace OHLogStreamBuf

variable {N : ℕ}

/-! ## The class -/

def setp (b : OHLogStreamBuf N) (beg fin : ℕ) : OHLogStreamBuf N :=
  { b with pbase := beg, pptr := beg, epptr := fin }

/-- The constructor. The array is not initialised, so its contents are arbitrary. -/
def new (N : ℕ) (mem : ℕ → UInt8) (level : LogLevel) : OHLogStreamBuf N :=
  setp { buffer_ := mem, level_ := level, pbase := 0, pptr := 0, epptr := 0 } 0 (N - 1)

/-- The characters in `[pbase, pptr)`. -/
def putArea (b : OHLogStreamBuf N) : List UInt8 :=
  (List.range' b.pbase (b.pptr - b.pbase)).map b.buffer_

/-- Store `c` at `pptr` and advance it. -/
def push (b : OHLogStreamBuf N) (c : UInt8) : OHLogStreamBuf N :=
  { b with buffer_ := Function.update b.buffer_ b.pptr c, pptr := b.pptr + 1 }

/-- `buffer_[i] = v`. -/
def assign (b : OHLogStreamBuf N) (i : ℕ) (v : UInt8) : OHLogStreamBuf N :=
  { b with buffer_ := Function.update b.buffer_ i v }

/-- The message `OH_LOG_Print` gets with the pointer `pbase`. The put area and the cell after it
are what it may read. -/
def message (b : OHLogStreamBuf N) : LogMessage where
  level := b.level_
  raw := b.putArea
  text := cString b.buffer_ b.pbase (b.pptr - b.pbase + 1)

def sync (b : OHLogStreamBuf N) : ℤ × OHLogStreamBuf N × List Effect :=
  let len := b.pptr - b.pbase
  if len > 0 then
    let b' := b.assign len 0
    (0, b'.setp 0 (N - 1), [.store len 0, .print b'.message])
  else
    (-1, b, [])

def overflow (b : OHLogStreamBuf N) (c : ℤ) : ℤ × OHLogStreamBuf N × List Effect :=
  let pushed :=
    if c ≠ EOF then (b.push (UInt8.ofInt c), [Effect.store b.pptr (UInt8.ofInt c)]) else (b, [])
  let synced := pushed.1.sync
  if synced.1 = -1 then (EOF, synced.2.1, pushed.2 ++ synced.2.2)
  else (c, synced.2.1, pushed.2 ++ synced.2.2)

/-- `std::streambuf::sputc`: store the character while there is room, else call `overflow`. -/
def sputc (b : OHLogStreamBuf N) (c : UInt8) : ℤ × OHLogStreamBuf N × List Effect :=
  if b.pptr < b.epptr then (toIntType c, b.push c, [.store b.pptr c])
  else b.overflow (toIntType c)

/-- The buffer under character writes (`put`) and syncs (`flush`). -/
def machine (N : ℕ) : Transducer (OHLogStreamBuf N) (BlockWriter.Op UInt8) Effect where
  step b
    | .put c => (b.sputc c).2
    | .flush => b.sync.2

end OHLogStreamBuf

/-- The contents of a printed message. -/
def Effect.raw? : Effect → Option (List UInt8)
  | .store _ _ => none
  | .print m => some m.raw

/-- The messages handed to `OH_LOG_Print`, in order. -/
def messages : List Effect → List LogMessage
  | [] => []
  | .store _ _ :: es => messages es
  | .print m :: es => m :: messages es

theorem map_raw_messages (es : List Effect) :
    (messages es).map LogMessage.raw = es.filterMap Effect.raw? := by
  induction es with
  | nil => rfl
  | cons e es ih => cases e <;> simp [messages, List.filterMap_cons, Effect.raw?, ih]

theorem mem_messages {es : List Effect} {m : LogMessage} :
    m ∈ messages es ↔ Effect.print m ∈ es := by
  induction es with
  | nil => simp [messages]
  | cons e es ih => cases e <;> simp [messages, ih]

/-! ## Terminators -/

/-- Every message comes directly after the store of its terminator. -/
def Terminated (es : List Effect) : Prop :=
  ∀ pre m post, es = pre ++ .print m :: post → ∃ pre', pre = pre' ++ [.store m.raw.length 0]

theorem terminated_nil : Terminated [] := by
  intro pre m post h
  simp at h

theorem terminated_store (i : ℕ) (v : UInt8) : Terminated [.store i v] := by
  intro pre m post h
  have hmem : Effect.print m ∈ [Effect.store i v] := by rw [h]; simp
  simp at hmem

theorem terminated_print (m : LogMessage) : Terminated [.store m.raw.length 0, .print m] := by
  intro pre m' post h
  match pre with
  | [] => simp at h
  | [e] =>
    simp only [List.cons_append, List.nil_append, List.cons.injEq, Effect.print.injEq] at h
    obtain ⟨rfl, rfl, -⟩ := h
    exact ⟨[], rfl⟩
  | _ :: _ :: pre => simp at h

theorem Terminated.append {es es' : List Effect} (h : Terminated es) (h' : Terminated es') :
    Terminated (es ++ es') := by
  intro pre m post heq
  obtain ⟨mid, rfl, hmid⟩ | ⟨mid, rfl, hmid⟩ := List.append_eq_append_iff.1 heq
  · obtain ⟨pre', rfl⟩ := h' mid m post hmid
    exact ⟨es ++ pre', by rw [List.append_assoc]⟩
  · -- The message is in `es`, or it is the first of `es'`, which has no terminator before it.
    cases mid with
    | nil =>
      obtain ⟨pre', hpre⟩ := h' [] m post hmid.symm
      exact absurd hpre (by simp)
    | cons e mid =>
      obtain ⟨rfl, -⟩ := List.cons.inj hmid
      exact h pre m mid rfl

/-! ## Characters and C strings -/

@[simp] theorem ofInt_toIntType (c : UInt8) : UInt8.ofInt (toIntType c) = c := by
  have := c.toNat_lt
  simp [UInt8.ofInt, toIntType, Int.emod_eq_of_lt (Int.natCast_nonneg _)
    (show (c.toNat : ℤ) < 256 by omega)]

theorem toIntType_ne_EOF (c : UInt8) : toIntType c ≠ EOF := by
  unfold toIntType EOF
  omega

/-- With the terminator among them, the cells read are those before the first NUL. -/
theorem cString_eq_takeWhile (mem : ℕ → UInt8) (p len : ℕ) (h : mem (p + len) = 0) :
    cString mem p (len + 1) = ((List.range' p len).map mem).takeWhile (· ≠ 0) := by
  induction len generalizing p with
  | zero => simp_all [cString]
  | succ len ih =>
    rw [cString, List.range'_succ, List.map_cons, List.takeWhile_cons]
    by_cases h0 : mem p = 0
    · simp [h0]
    · simp only [h0, if_false, ne_eq, not_false_eq_true, decide_true, if_true]
      rw [ih (p + 1) (by rw [← h]; congr 1; omega)]

namespace OHLogStreamBuf

variable {N : ℕ} {b : OHLogStreamBuf N}

/-! ## One call -/

/-- A store at or after the end of a range leaves its cells alone. -/
theorem map_range'_update {mem : ℕ → UInt8} {p len k : ℕ} (hk : p + len ≤ k) (v : UInt8) :
    (List.range' p len).map (Function.update mem k v) = (List.range' p len).map mem := by
  refine List.map_congr_left fun i hi => Function.update_of_ne ?_ _ _
  have := List.mem_range'_1.1 hi
  omega

theorem putArea_push (h : b.pbase ≤ b.pptr) (c : UInt8) :
    (b.push c).putArea = b.putArea ++ [c] := by
  have hlen : b.pptr + 1 - b.pbase = b.pptr - b.pbase + 1 := by omega
  have hend : b.pbase + (b.pptr - b.pbase) = b.pptr := by omega
  simp only [putArea, push, hlen, List.range'_concat, List.map_append, List.map_cons,
    List.map_nil, Nat.one_mul, hend, Function.update_self, map_range'_update hend.le]

/-- The terminator goes to the cell after the put area. -/
theorem putArea_assign (h : b.pbase = 0) (v : UInt8) : (b.assign b.pptr v).putArea = b.putArea := by
  simp only [putArea, assign, h, Nat.sub_zero]
  exact map_range'_update (Nat.zero_add _).le v

/-- With the terminator stored, a message prints its contents up to the first NUL. -/
theorem message_assign (h : b.pbase = 0) :
    (b.assign b.pptr 0).message = .of b.level_ b.putArea := by
  have hmem : (b.assign b.pptr 0).buffer_ (b.pbase + (b.pptr - b.pbase)) = 0 := by
    simp [assign, h]
  have htext : (b.assign b.pptr 0).message.text =
      (b.assign b.pptr 0).putArea.takeWhile (· ≠ 0) :=
    cString_eq_takeWhile _ _ _ hmem
  rw [LogMessage.of, ← putArea_assign h 0, ← htext]
  rfl

theorem sync_of_empty (h : b.pptr - b.pbase = 0) : b.sync = (-1, b, []) := by
  simp [sync, h]

theorem sync_of_pos (h : 0 < b.pptr - b.pbase) :
    b.sync = (0, (b.assign (b.pptr - b.pbase) 0).setp 0 (N - 1),
      [.store (b.pptr - b.pbase) 0, .print (b.assign (b.pptr - b.pbase) 0).message]) := by
  simp [sync, h]

/-- `overflow` with a character always finds something to flush, so it never fails. -/
theorem overflow_toIntType (h : b.pbase ≤ b.pptr) (c : UInt8) :
    b.overflow (toIntType c) =
      (toIntType c, (b.push c).sync.2.1, .store b.pptr c :: (b.push c).sync.2.2) := by
  have hpos : 0 < (b.push c).pptr - (b.push c).pbase := by
    show 0 < b.pptr + 1 - b.pbase
    omega
  simp [overflow, toIntType_ne_EOF, sync_of_pos hpos]

/-! ## Refinement to a block writer -/

/-- The put area of `b` is the pending block of `w`. -/
structure Rep (b : OHLogStreamBuf N) (w : BlockWriter UInt8 N) : Prop where
  pbase : b.pbase = 0
  epptr : b.epptr = N - 1
  area : b.putArea = w.pending

variable {w : BlockWriter UInt8 N}

theorem Rep.pptr (h : Rep b w) : b.pptr = w.pending.length := by
  have := congrArg List.length h.area
  simpa [putArea, h.pbase] using this

theorem Rep.pptr_lt (h : Rep b w) : b.pptr < N := h.pptr ▸ w.lt

theorem rep_new (hN : 0 < N) (mem : ℕ → UInt8) (level : LogLevel) :
    Rep (new N mem level) (.empty hN) := ⟨rfl, rfl, rfl⟩

/-- After a successful `sync` the area is empty. -/
theorem rep_sync_empty (h : 0 < b.pptr - b.pbase) (hN : 0 < N) : Rep b.sync.2.1 (.empty hN) := by
  rw [sync_of_pos h]
  exact ⟨rfl, rfl, rfl⟩

/-- A write with room for it only stores the character. -/
theorem Rep.sputc_room (h : Rep b w) (hroom : b.pptr < N - 1) (c : UInt8) :
    b.sputc c = (toIntType c, b.push c, [.store b.pptr c]) := by
  rw [sputc, if_pos (by rw [h.epptr]; exact hroom)]

/-- A write to a full area flushes it, the new character included: the character goes to the
last cell of the array and the terminator to the cell after it. -/
theorem Rep.sputc_full (h : Rep b w) (hfull : b.pptr = N - 1) (c : UInt8) :
    b.sputc c = (toIntType c, (b.push c).sync.2.1,
      [.store (N - 1) c, .store N 0, .print (.of b.level_ (w.pending ++ [c]))]) := by
  have hlt := h.pptr_lt
  have hpptr : (b.push c).pptr = N := by
    show b.pptr + 1 = N
    omega
  have hlen : (b.push c).pptr - (b.push c).pbase = N := by
    rw [hpptr, show (b.push c).pbase = 0 from h.pbase, Nat.sub_zero]
  have hmessage := message_assign (b := b.push c) h.pbase
  rw [hpptr, putArea_push (by rw [h.pbase]; omega), h.area] at hmessage
  rw [sputc, if_neg (by rw [h.epptr]; omega), overflow_toIntType (by rw [h.pbase]; omega),
    sync_of_pos (by omega), hlen, hmessage, hfull]
  rfl

/-- A sync with something pending prints it, with the terminator stored right after it. -/
theorem Rep.sync_pending (h : Rep b w) (hw : w.pending ≠ []) :
    b.sync = (0, (b.assign b.pptr 0).setp 0 (N - 1),
      [.store b.pptr 0, .print (.of b.level_ w.pending)]) := by
  have hlen : b.pptr - b.pbase = b.pptr := by rw [h.pbase, Nat.sub_zero]
  have hpos : 0 < b.pptr - b.pbase := by
    rw [hlen, h.pptr]
    exact List.length_pos_iff.2 hw
  rw [sync_of_pos hpos, hlen, message_assign h.pbase, h.area]

/-- A sync with nothing pending fails. -/
theorem Rep.sync_nil (h : Rep b w) (hw : w.pending = []) : b.sync = (-1, b, []) := by
  refine sync_of_empty ?_
  rw [h.pbase, Nat.sub_zero, h.pptr, hw]
  rfl

/-- **One write refines one put.** -/
theorem Rep.sputc (h : Rep b w) (c : UInt8) :
    (b.sputc c).1 = toIntType c ∧ Rep (b.sputc c).2.1 (w.put c).1 ∧
      (b.sputc c).2.2.filterMap Effect.raw? = (w.put c).2 := by
  have hlt := h.pptr_lt
  have harea : (b.push c).putArea = w.pending ++ [c] := by
    rw [putArea_push (by rw [h.pbase]; omega), h.area]
  by_cases hroom : b.pptr < N - 1
  · have hw : w.pending.length + 1 < N := by rw [← h.pptr]; omega
    rw [h.sputc_room hroom, BlockWriter.put_of_lt hw]
    exact ⟨rfl, ⟨h.pbase, h.epptr, harea⟩, rfl⟩
  · have hw : w.pending.length + 1 = N := by rw [← h.pptr]; omega
    rw [h.sputc_full (by omega), BlockWriter.put_of_full hw]
    refine ⟨rfl, rep_sync_empty ?_ _, rfl⟩
    show 0 < b.pptr + 1 - b.pbase
    rw [h.pbase]
    omega

/-- **One sync refines one flush**, and fails just when nothing is pending. -/
theorem Rep.sync (h : Rep b w) :
    (b.sync.1 = if w.pending = [] then -1 else 0) ∧ Rep b.sync.2.1 w.flush.1 ∧
      b.sync.2.2.filterMap Effect.raw? = w.flush.2 := by
  unfold BlockWriter.flush
  split_ifs with hw
  · rw [h.sync_nil hw]
    exact ⟨rfl, h, rfl⟩
  · rw [h.sync_pending hw]
    exact ⟨rfl, ⟨rfl, rfl, rfl⟩, rfl⟩

/-- **The buffer refines the block writer** over whole runs. -/
theorem Rep.run (h : Rep b w) (ops : List (BlockWriter.Op UInt8)) :
    Rep ((machine N).state b ops) ((BlockWriter.machine UInt8 N).state w ops) ∧
      ((machine N).output b ops).filterMap Effect.raw? =
        (BlockWriter.machine UInt8 N).output w ops := by
  refine Transducer.simulate (fun b w op h => ?_) h ops
  cases op with
  | put c => exact (h.sputc c).2
  | flush => exact h.sync.2

/-! ## Messages -/

/-- A message printed in one step: its level and its text. -/
theorem Rep.step_print (h : Rep b w) {op : BlockWriter.Op UInt8} {m : LogMessage}
    (hm : Effect.print m ∈ ((machine N).step b op).2) :
    m.level = b.level_ ∧ m.text = m.raw.takeWhile (· ≠ 0) := by
  have hlt := h.pptr_lt
  cases op with
  | put c =>
    change Effect.print m ∈ (b.sputc c).2.2 at hm
    by_cases hroom : b.pptr < N - 1
    · rw [h.sputc_room hroom] at hm
      exact absurd hm (by simp)
    · rw [h.sputc_full (by omega)] at hm
      obtain rfl : m = .of b.level_ (w.pending ++ [c]) := by simpa using hm
      exact ⟨rfl, rfl⟩
  | flush =>
    change Effect.print m ∈ b.sync.2.2 at hm
    by_cases hw : w.pending = []
    · rw [h.sync_nil hw] at hm
      cases hm
    · rw [h.sync_pending hw] at hm
      obtain rfl : m = .of b.level_ w.pending := by simpa using hm
      exact ⟨rfl, rfl⟩

/-- Every message of a run prints its contents up to the first NUL. -/
theorem Rep.print (h : Rep b w) (ops : List (BlockWriter.Op UInt8)) {m : LogMessage}
    (hm : Effect.print m ∈ (machine N).output b ops) : m.text = m.raw.takeWhile (· ≠ 0) := by
  induction ops generalizing b w with
  | nil => cases hm
  | cons op ops ih =>
    rw [Transducer.output_cons] at hm
    rcases List.mem_append.1 hm with hm | hm
    · exact (h.step_print hm).2
    · exact ih (h.run [op]).1 hm

/-- `sync` stores the terminator of a message before it prints it. -/
theorem Rep.step_terminated (h : Rep b w) (op : BlockWriter.Op UInt8) :
    Terminated ((machine N).step b op).2 := by
  have hlt := h.pptr_lt
  cases op with
  | put c =>
    change Terminated (b.sputc c).2.2
    by_cases hroom : b.pptr < N - 1
    · rw [h.sputc_room hroom]
      exact terminated_store _ _
    · have hlen : (w.pending ++ [c]).length = N := by
        rw [List.length_append, ← h.pptr, List.length_singleton]
        omega
      have hprint := terminated_print (.of b.level_ (w.pending ++ [c]))
      rw [show (LogMessage.of b.level_ (w.pending ++ [c])).raw.length = N from hlen] at hprint
      rw [h.sputc_full (by omega)]
      exact (terminated_store (N - 1) c).append hprint
  | flush =>
    change Terminated b.sync.2.2
    by_cases hw : w.pending = []
    · rw [h.sync_nil hw]
      exact terminated_nil
    · rw [h.sync_pending hw, h.pptr]
      exact terminated_print (.of b.level_ w.pending)

/-- Every message of a run has its terminator stored directly before it is printed. -/
theorem Rep.terminated (h : Rep b w) (ops : List (BlockWriter.Op UInt8)) :
    Terminated ((machine N).output b ops) := by
  induction ops generalizing b w with
  | nil => exact terminated_nil
  | cons op ops ih =>
    rw [Transducer.output_cons]
    exact (h.step_terminated op).append (ih (h.run [op]).1)

end OHLogStreamBuf

end OhosWrapper.Logging
