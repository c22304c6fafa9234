import Rel4.Proof.FaultReply

/-! Registers written to a thread are the registers read from it. -/

namespace Rel4

open Lib
open Function (update update_of_ne update_self)

section Context

variable {arch : Arch} {uc : UserContext} {i j n : Nat}

/-- The register at a position of a user context. -/
def Arch.userReg (arch : Arch) (i : Nat) : Nat := arch.userContextRegs.getD i 0

theorem userContextRegs_eq (inside : i < 32) : arch.userContextRegs[i]? = some (arch.userReg i) := by
  -- Both tables have an entry for every position a message can name.
  have long : i < arch.userContextRegs.length := by cases arch <;> exact inside
  simp [Arch.userReg, List.getElem?_eq_getElem long]

theorem abiWords_le : arch.userContextAbiWords ≤ 32 := by
  cases arch <;> decide

/-- No register is at two positions. -/
theorem userReg_inj (hi : i < arch.userContextAbiWords) (hj : j < arch.userContextAbiWords)
    (same : arch.userReg i = arch.userReg j) : i = j := by
  have table : ∀ arch : Arch, ∀ i < arch.userContextAbiWords, ∀ j < arch.userContextAbiWords,
      arch.userReg i = arch.userReg j → i = j := by
    rintro (_ | _) <;> decide
  exact table arch i hi j hj same

/-- Only the first position stands for the program counter. -/
theorem userReg_notMem_copies (later : 1 ≤ i) (inside : i < arch.userContextAbiWords) :
    arch.userReg i ∉ arch.faultIpCopies := by
  have table : ∀ arch : Arch, ∀ i < arch.userContextAbiWords, 1 ≤ i → arch.userReg i ∉ arch.faultIpCopies := by
    rintro (_ | _) <;> decide
  exact table arch i inside later

theorem word_zero : uc.word arch 0 = uc.restartPc := rfl

theorem word_reg (later : 1 ≤ i) (inside : i < arch.userContextAbiWords) :
    uc.word arch i = uc.regs (arch.userReg i) := by
  have long := lt_of_lt_of_le inside abiWords_le
  rw [UserContext.word, if_neg (by omega), userContextRegs_eq long]

/-- The registers at the positions from the second up to some position, with a value for each. -/
def writtenAt (arch : Arch) (value : Nat → Word) (n : Nat) : List (Nat × Word) :=
  (List.range' 2 (n - 2) ++ if 2 ≤ n then [1] else []).map fun i => (arch.userReg i, value i)

theorem mem_positions : i ∈ List.range' 2 (n - 2) ++ (if 2 ≤ n then [1] else []) ↔ 1 ≤ i ∧ i < n := by
  by_cases two : 2 ≤ n
  · simp [two, List.mem_range'_1]
    omega
  · simp [two, List.mem_range'_1]
    omega

theorem writtenAt_nodup {value : Nat → Word} (inside : n ≤ arch.userContextAbiWords) :
    ((writtenAt arch value n).map Prod.fst).Nodup := by
  -- The positions are distinct, and so are their registers.
  rw [writtenAt, List.map_map]
  refine List.Nodup.map_on (fun i hi j hj same => ?_) ?_
  · exact userReg_inj (lt_of_lt_of_le (mem_positions.mp hi).2 inside)
      (lt_of_lt_of_le (mem_positions.mp hj).2 inside) same
  · refine List.Nodup.append List.nodup_range' ?_ fun i low high => ?_
    · split <;> simp
    · split at high
      · have first := List.mem_singleton.mp high
        have second := (List.mem_range'_1.mp low).1
        omega
      · cases high

/-- The words of a context after a write: the first few are what was written, the others as before. -/
theorem write_word (value : Nat → Word) (some' : 1 ≤ n) (bound : n ≤ arch.userContextAbiWords)
    (inside : i < arch.userContextAbiWords) :
    (uc.write arch (some (value 0)) (writtenAt arch value n)).word arch i =
      if i < n then value i else uc.word arch i := by
  rw [write_some]
  by_cases zero : i = 0
  · -- The program counter is not among the registers, which are written behind it.
    subst zero
    rw [word_zero, write_pc.2, if_pos (Nat.lt_of_succ_le some')]
    cases arch <;> rfl
  · have later : 1 ≤ i := Nat.one_le_iff_ne_zero.mpr zero
    rw [word_reg later inside, word_reg later inside]
    by_cases below : i < n
    · have here : (arch.userReg i, value i) ∈ writtenAt arch value n :=
        List.mem_map.mpr ⟨i, mem_positions.mpr ⟨later, below⟩, rfl⟩
      rw [if_pos below, write_regs_of_mem (writtenAt_nodup bound) here]
    · have absent : arch.userReg i ∉ (writtenAt arch value n).map Prod.fst := by
        simp only [writtenAt, List.map_map, List.mem_map, Function.comp_apply, not_exists, not_and]
        intro j member same
        have written := mem_positions.mp member
        have equal := userReg_inj (lt_of_lt_of_le written.2 bound) inside same
        omega
      rw [if_neg below, write_regs_of_notMem absent, applyWrittenPc_regs (userReg_notMem_copies later inside)]

end Context

section Messages

variable {s s' : KState} {cur target buffer : Addr} {i n : Nat}

/-- A word of a message: the first few are in registers, the others in a buffer. -/
def KState.sharedWord (s : KState) (uc buffer : Addr) (i : Nat) : Word :=
  if i < nMsgRegisters then (s.threads.tcbs uc).context.mr s.env.arch i else s.bufferWord buffer (1 + i)

/-- The message info of the call a thread is about to make. -/
def KState.callInfo (s : KState) (cur : Addr) : MessageInfo :=
  .ofWord ((s.threads.tcbs cur).context.msgInfo s.env.arch)

/-- The current thread, which has a buffer, is about to invoke another thread. -/
structure Invokes (s : KState) (cur target buffer : Addr) (label : InvocationLabel) : Prop where
  current : s.threads.current = some cur
  other : target ≠ cur
  buffer : s.ipcBuffer cur = some buffer
  found : ∃ slot, s.lookupCap cur ((s.threads.tcbs cur).context.capReg s.env.arch) = some (.thread target, slot)
  live : target ≠ 0
  label : InvocationLabel.ofRaw (s.callInfo cur).label = some label

/-- Answering keeps the message registers. -/
theorem writeReply_mr (uc : UserContext) (arch : Arch) (info : Word) :
    ((uc.setCapReg arch 0).setMsgInfo arch info).mr arch i = uc.mr arch i := by
  -- The two registers of an answer are not message registers.
  have apart : ∀ reg, arch.mr i = some reg → reg ≠ arch.capReg ∧ reg ≠ arch.msgInfo := by
    intro reg is
    unfold Arch.mr at is
    cases arch <;> split at is <;> simp_all [Arch.capReg, Arch.msgInfo] <;> omega
  unfold UserContext.mr
  split
  · rename_i reg is
    simp [UserContext.setCapReg, UserContext.setMsgInfo, UserContext.setReg, apart reg is]
  · rfl

/-- The caller has been answered. -/
def KState.replied (s : KState) (cur : Addr) (info : Word) : KState :=
  { s with
    threads := s.threads.updTcb cur fun t =>
      { t with context := (t.context.setCapReg s.env.arch 0).setMsgInfo s.env.arch info } }

theorem replied_sharedWord (info : Word) : (s.replied cur info).sharedWord cur buffer i = s.sharedWord cur buffer i := by
  simp only [KState.replied, KState.sharedWord, KState.bufferWord, Threads.updTcb, update_self, writeReply_mr]

/-- A call that invokes a thread runs its handler and then answers. -/
theorem wp_doCall {label : InvocationLabel} (invokes : Invokes s cur target buffer label)
    {post : Unit → KState → Prop} {fail : Abort → KState → Prop}
    (handled : ∀ slot, wp (handleThread cur cur slot (.thread target) (s.callInfo cur).label (s.callInfo cur).length)
      (fun _ s' => ∀ info, post () (s'.replied cur info))
      (fun stop s' => match stop with
        | .error _ => False
        | _ => fail stop s') s) :
    wp (doCall cur) post fail s := by
  obtain ⟨slot, found⟩ := invokes.found
  have whole : messageLength s cur (s.callInfo cur) = (s.callInfo cur).length := by
    simp [messageLength, invokes.buffer]
  simp only [KState.callInfo] at whole handled
  simp only [doCall, wp_bind, wp_get, wp_getMsgInfo, invokes.current, wp_getCapReg, found, whole, invoke,
    wp_attempt]
  refine wp_mono (handled slot) (fun _ s' done => ?_) fun stop s' stopped => ?_
  · exact done _
  · cases stop <;> first | exact stopped.elim | exact stopped

end Messages

section Write

variable {s : KState} {cur target buffer : Addr} {n : Nat}

/-- What a write of some words carries is these words, each for its register. -/
theorem writtenRegisters_eq (current : s.threads.current = some cur) (hasBuffer : s.ipcBuffer cur = some buffer)
    (bound : n ≤ s.env.arch.userContextAbiWords) {length : Nat} (long : n + 2 ≤ length) :
    writtenRegisters s cur n length = writtenAt s.env.arch (fun i => s.sharedWord cur buffer (2 + i)) n := by
  have limit : n ≤ 32 := le_trans bound abiWords_le
  have second : s.env.arch.userContextRegs.getD 1 0 ≠ 0 := by cases s.env.arch <;> decide
  -- The words from the third on come from the buffer.
  have fromBuffer : (if 5 ≤ length ∧ 3 ≤ n then
      (List.range' 2 (min (min length (n + 2)) 34 - 4)).filterMap fun index =>
        if s.env.arch.userContextAbiWords ≤ index then none
        else s.env.arch.userContextRegs[index]?.map fun reg => (reg, s.bufferWord buffer (1 + (index + 2)))
      else []) =
      (List.range' 2 (n - 2)).map fun i => (s.env.arch.userReg i, s.sharedWord cur buffer (2 + i)) := by
    by_cases three : 3 ≤ n
    · rw [if_pos ⟨by omega, three⟩, show min (min length (n + 2)) 34 - 4 = n - 2 by omega]
      refine List.filterMap_eq_map_iff_forall_eq_some.mpr fun i member => ?_
      have place := List.mem_range'_1.mp member
      rw [if_neg (by omega), userContextRegs_eq (by omega), Option.map_some, KState.sharedWord,
        if_neg (by simp [nMsgRegisters]; omega), Nat.add_comm 2 i]
    · rw [if_neg (by omega), show n - 2 = 0 by omega]
      rfl
  have fromRegister : (if 2 ≤ n ∧ 4 ≤ length ∧ s.env.arch.userContextRegs.getD 1 0 ≠ 0 then
      [(s.env.arch.userContextRegs.getD 1 0, (s.threads.tcbs cur).context.mr s.env.arch 3)] else []) =
      (if 2 ≤ n then [1] else []).map fun i => (s.env.arch.userReg i, s.sharedWord cur buffer (2 + i)) := by
    by_cases two : 2 ≤ n
    · rw [if_pos ⟨two, by omega, second⟩, if_pos two]
      rfl
    · rw [if_neg (by omega), if_neg two]
      rfl
  simp only [writtenRegisters, current, Option.bind_some, hasBuffer, fromBuffer, fromRegister, writtenAt,
    List.map_append]

/-- The target of a write has the words that were sent, and otherwise the words it had. -/
theorem doCall_writes (invokes : Invokes s cur target buffer .tcbWriteRegisters)
    (stays : (s.sharedWord cur buffer 0).testBit 0 = false) (count : s.sharedWord cur buffer 1 = n)
    (some' : 1 ≤ n) (bound : n ≤ s.env.arch.userContextAbiWords) (long : n + 2 ≤ (s.callInfo cur).length) :
    ∃ s₁, doCall cur s = .ok () s₁ ∧ s₁.env = s.env ∧
      ∀ i < s.env.arch.userContextAbiWords, (s₁.threads.tcbs target).context.word s.env.arch i =
        if i < n then s.sharedWord cur buffer (2 + i) else (s.threads.tcbs target).context.word s.env.arch i := by
  have flag : (s.threads.tcbs cur).context.mr s.env.arch 0 = s.sharedWord cur buffer 0 := rfl
  have words : (s.threads.tcbs cur).context.mr s.env.arch 1 = n := count
  suffices ran : wp (doCall cur) (fun _ s₁ => s₁.env = s.env ∧
      ∀ i < s.env.arch.userContextAbiWords, (s₁.threads.tcbs target).context.word s.env.arch i =
        if i < n then s.sharedWord cur buffer (2 + i) else (s.threads.tcbs target).context.word s.env.arch i)
      (fun _ _ => False) s by
    obtain ⟨_, s₁, run, done⟩ := exists_ok_of_wp ran
    exact ⟨s₁, run, done⟩
  refine wp_doCall invokes fun slot => ?_
  have is := invokes.label
  have notSelf : ¬ cur = target := fun same => invokes.other same.symm
  have three : (3 : Nat) ≤ (s.callInfo cur).length := by omega
  have pc : (if 1 ≤ n ∧ 3 ≤ (s.callInfo cur).length then some ((s.threads.tcbs cur).context.mr s.env.arch 2)
      else none) = some (s.sharedWord cur buffer (2 + 0)) := if_pos ⟨some', three⟩
  have two : ¬ (s.callInfo cur).length < 2 := Nat.not_lt.mpr (Nat.le_of_succ_le three)
  have all : ¬ (s.callInfo cur).length - 2 < n := Nat.not_lt.mpr (Nat.le_sub_of_add_le long)
  simp only [handleThread, handleThreadInner, threadOf, fromKva, invokes.live, if_false, is, tcbWriteRegisters,
    wp_bind, wp_getMr, wp_get, wp_ite, wp_raise, words, flag, stays, invokes.current, Option.some.injEq, notSelf,
    pc, writtenRegisters_eq invokes.current invokes.buffer bound long, wp_modifyContext, wp_pure]
  refine ⟨fun short => two short, fun _ => ⟨fun short => all short, fun _ => ⟨False.elim, fun _ =>
    ⟨fun no => absurd no Bool.false_ne_true, fun _ => ?_⟩⟩⟩⟩
  refine fun info => ⟨rfl, fun i inside => ?_⟩
  -- The answer is written to the caller, which is another thread.
  simp only [KState.replied, Threads.updTcb, update_of_ne invokes.other, update_self]
  exact write_word (fun i => s.sharedWord cur buffer (2 + i)) some' bound inside

end Write

section Read

variable {s : KState} {cur target buffer : Addr} {i n : Nat}

theorem setMrs_mr {arch : Arch} {uc : UserContext} {values : List Word} (few : i < nMsgRegisters)
    (inside : i < values.length) : (uc.setMrs arch values values.length).mr arch i = values.getD i 0 := by
  -- A message has no, one, two, three, or at least four words for the registers.
  have four : i = 0 ∨ i = 1 ∨ i = 2 ∨ i = 3 := by simp only [nMsgRegisters] at few; omega
  rcases values with _ | ⟨a, _ | ⟨b, _ | ⟨c, _ | ⟨d, rest⟩⟩⟩⟩ <;> cases arch <;>
    rcases four with rfl | rfl | rfl | rfl <;>
    simp_all [UserContext.setMrs, UserContext.setMr, UserContext.mr, Arch.mr, UserContext.setReg]

/-- Nothing that a thread could read of its message has changed. -/
def SameMessages (s s' : KState) : Prop := SameRegisters s s' ∧ s'.buffers = s.buffers

instance : IsPreorder KState SameMessages where
  refl s := ⟨refl_of SameRegisters s, rfl⟩
  trans _ _ _ first second := ⟨trans_of SameRegisters first.1 second.1, second.2.trans first.2⟩

theorem SameMessages.sharedWord {s' : KState} (same : SameMessages s s') :
    s'.sharedWord cur buffer i = s.sharedWord cur buffer i := by
  simp only [KState.sharedWord, KState.bufferWord, same.1.1, same.1.2.context, same.2]

/-- Deleting a capability at once keeps all buffers; it only stops at a capability that cannot be. -/
theorem cteDeleteOne_buffers (slot : Slot) (s : KState) :
    wp (cteDeleteOne slot) (fun _ s' => s'.buffers = s.buffers) (fun stop _ => ∃ text, stop = .panic text) s := by
  have once : ∀ cap isFinal, wp (finalizeAtOnce cap isFinal) (fun _ s' => s'.buffers = s.buffers)
      (fun stop _ => ∃ text, stop = .panic text) s := by
    intro cap isFinal
    unfold finalizeAtOnce
    cases cap <;> simp only [wp_bind, wp_get, wp_pure, wp_ite, wp_set, wp_crash] <;> simp
  unfold cteDeleteOne
  simp only [wp_bind, wp_get, wp_ite, wp_crash, wp_pure]
  refine ⟨fun _ => wp_mono (once _ _) (fun done s' same => ?_) fun _ _ => id, fun _ => trivial⟩
  simp only [emptyFinalizedSlot, postCapDeletion, wp_bind, wp_get, wp_ite, wp_set, wp_pure]
  exact ⟨fun _ => ⟨fun _ => same, fun _ => same⟩, fun _ => ⟨_, rfl⟩⟩

/-- Suspending a thread changes no message of any thread. -/
theorem suspend_messages (t : Addr) (s : KState) :
    wp (suspend t) (fun _ => SameMessages s) (fun stop _ => ∃ text, stop = .panic text) s := by
  unfold suspend cancelBlockedOnReply
  simp only [wp_bind, wp_get, wp_ite, wp_modifyThreads, wp_modifyTcb, wp_pure]
  refine ⟨fun _ => ?_, fun _ => refl_of SameMessages s⟩
  have left : s.threads.SameContexts (((s.threads.unlinkFromWaitObject t).dequeue t).updTcb t Tcb.clearFault) :=
    ((Threads.SameContexts.unlinkFromWaitObject s.threads t).trans (.of_tcbs Threads.dequeue_tcbs)).trans (.updTcb rfl)
  have stops : ∀ th : Threads, th.SameContexts (th.updTcb t fun u => { u with state := .inactive }) :=
    fun _ => .updTcb rfl
  split
  · rename_i derived _
    -- The capability to reply to it is deleted on the way.
    refine wp_mono (wp_and (cteDeleteOne_registers derived _) (cteDeleteOne_buffers derived _)) (fun _ s₁ both => ?_)
      fun _ s₁ both => both.2
    exact ⟨⟨both.1.1, (left.trans both.1.2).trans (stops _)⟩, both.2⟩
  · exact ⟨⟨rfl, left.trans (stops _)⟩, rfl⟩

/-- The caller of a read gets the words of the target; only the suspension that may follow can fail. -/
theorem doCall_reads (invokes : Invokes s cur target buffer .tcbReadRegisters) (count : s.sharedWord cur buffer 1 = n)
    (some' : 1 ≤ n) (bound : n ≤ s.env.arch.userContextAbiWords) (long : 2 ≤ (s.callInfo cur).length) :
    wp (doCall cur)
      (fun _ s₁ => ∀ i < n, s₁.sharedWord cur buffer i = (s.threads.tcbs target).context.word s.env.arch i)
      (fun _ _ => (s.sharedWord cur buffer 0).testBit 0 = true) s := by
  have flag : (s.threads.tcbs cur).context.mr s.env.arch 0 = s.sharedWord cur buffer 0 := rfl
  have words : (s.threads.tcbs cur).context.mr s.env.arch 1 = n := count
  have limit : n ≤ 32 := le_trans bound abiWords_le
  have within : ¬ (n = 0 ∨ s.env.arch.userContextWords < n) := by
    cases arch : s.env.arch <;> simp_all [Arch.userContextAbiWords, Arch.userContextWords] <;> omega
  refine wp_doCall invokes fun slot => ?_
  have is := invokes.label
  have notSelf : ¬ cur = target := fun same => invokes.other same.symm
  let values := (List.range n).map ((s.threads.tcbs target).context.word s.env.arch)
  -- The state in which the words have been handed over.
  let told : KState := { s with
    threads := s.threads.updTcb cur fun t => { t with context := t.context.setMrs s.env.arch values n }
    buffers := update s.buffers buffer fun i =>
      if 5 ≤ i ∧ i < 5 + (n - 4) then (values.drop 4).getD (i - 5) 0 else s.buffers buffer i }
  have tells : ∀ i < n, told.sharedWord cur buffer i = (s.threads.tcbs target).context.word s.env.arch i := by
    intro i inside
    have value : values.getD i 0 = (s.threads.tcbs target).context.word s.env.arch i := by
      simp [values, List.getD, inside]
    rw [← value]
    have size : values.length = n := by simp [values]
    by_cases few : i < nMsgRegisters
    · rw [KState.sharedWord, if_pos few]
      simp only [told, Threads.updTcb, update_self]
      rw [← size]
      exact setMrs_mr few (by omega)
    · have four : 4 ≤ i := Nat.le_of_not_lt few
      rw [KState.sharedWord, if_neg few, KState.bufferWord, if_pos (by simp [ipcBufferWords]; omega)]
      simp only [told, update_self]
      rw [if_pos (by omega), List.getD, List.getD, List.getElem?_drop, show 4 + (1 + i - 5) = i by omega]
  -- Whatever the suspension does, and the answer behind it, no word of the message changes.
  have answered : ∀ s₁ : KState, SameMessages told s₁ → ∀ info, ∀ i < n,
      (s₁.replied cur info).sharedWord cur buffer i = (s.threads.tcbs target).context.word s.env.arch i := by
    intro s₁ same info i inside
    rw [replied_sharedWord, same.sharedWord]
    exact tells i inside
  have fits : 1 + 4 + (values.drop 4).length ≤ ipcBufferWords := by simp [values, ipcBufferWords]; omega
  have buffers : 1 + 4 + (values.drop 4).length = 5 + (n - 4) := by simp [values]
  simp only [handleThread, handleThreadInner, threadOf, fromKva, invokes.live, if_false, is, tcbReadRegisters,
    wp_bind, wp_getMr, wp_get, wp_ite, wp_raise, words, flag, invokes.current, Option.some.injEq, notSelf, within,
    wp_modifyContext, Option.bind_some, invokes.buffer, Nat.min_eq_left limit]
  refine ⟨fun short => Nat.not_lt.mpr long short, fun _ => ⟨False.elim, fun _ => ⟨False.elim, fun _ => ?_⟩⟩⟩
  have stored : { s with
      threads := s.threads.updTcb cur fun t => { t with context := t.context.setMrs s.env.arch values n }
      buffers := update s.buffers buffer fun i =>
        if 1 + 4 ≤ i ∧ i < 1 + 4 + (values.drop 4).length then (values.drop 4).getD (i - (1 + 4)) 0
        else s.buffers buffer i } = told := by
    simp only [buffers]
    rfl
  simp only [setBufferWords, wp_modify, fits, if_true, values, wp_pure] at stored ⊢
  rw [stored]
  refine ⟨fun suspends => ?_, fun _ => answered told (refl_of SameMessages told)⟩
  refine wp_mono (suspend_messages target told) (fun _ s₁ same => answered s₁ same) fun stop s₁ panics => ?_
  obtain ⟨text, rfl⟩ := panics
  exact suspends

end Read

/--
The words written to a thread that does not run are read back, and behind them the words it had.

Between the two calls anything may happen that leaves the registers of the target alone.
-/
theorem registers_round_trip {s : KState} {cur target buffer : Addr} {n : Nat}
    (invokes : Invokes s cur target buffer .tcbWriteRegisters)
    (stays : (s.sharedWord cur buffer 0).testBit 0 = false) (count : s.sharedWord cur buffer 1 = n)
    (positive : 1 ≤ n) (bound : n ≤ s.env.arch.userContextAbiWords) (long : n + 2 ≤ (s.callInfo cur).length) :
    ∃ s₁, doCall cur s = .ok () s₁ ∧
      ∀ (s₂ : KState) (reader buffer' : Addr) (m : Nat), KeepsContext target s₁ s₂ →
        Invokes s₂ reader target buffer' .tcbReadRegisters → s₂.sharedWord reader buffer' 1 = m → 1 ≤ m →
        m ≤ s.env.arch.userContextAbiWords → 2 ≤ (s₂.callInfo reader).length →
        wp (doCall reader)
          (fun _ s₃ => ∀ i < m, s₃.sharedWord reader buffer' i =
            if i < n then s.sharedWord cur buffer (2 + i) else (s.threads.tcbs target).context.word s.env.arch i)
          (fun _ _ => (s₂.sharedWord reader buffer' 0).testBit 0 = true) s₂ := by
  obtain ⟨s₁, run, env, written⟩ := doCall_writes invokes stays count positive bound long
  refine ⟨s₁, run, fun s₂ reader buffer' m kept reads asked some' within enough => ?_⟩
  have arch : s₂.env.arch = s.env.arch := by rw [kept.1, env]
  refine wp_mono (doCall_reads reads asked some' (arch ▸ within) enough) (fun _ s₃ told i inside => ?_) fun _ _ => id
  rw [told i inside, kept.2, arch]
  exact written i (lt_of_lt_of_le inside within)

/-- A thread about to invoke another one on an x86-64 machine, with some words and with given registers of the other. -/
def invokingThread (label length : Nat) (words : List Word) (registers : UserContext) : KState where
  env := { arch := .x8664, idleTcb := 0, irqNode := 0, bootPtPool := 0, ioapicPins := 0, fuel := 4 }
  caps :=
    { ctes := fun slot =>
        if slot = tcbSlot 4096 tcbCTableSlot then { cap := .cnode 8192 1 0 63 }
        else if slot = slotAt 8192 1 then { cap := .thread 65536 }
        else {} }
  threads :=
    { current := some 4096
      tcbs := fun t =>
        if t = 4096 then
          { state := .running, ipcBuffer := some 32768
            context := ((UserContext.setMrs .x8664 {} words 4).setCapReg .x8664 1).setMsgInfo .x8664
              (label * 2 ^ 12 + length) }
        else { context := registers } }
  buffers := fun _ i => words.getD (i - 1) 0

theorem invokingThread_callInfo (label length : Nat) (words : List Word) (registers : UserContext) :
    (invokingThread label length words registers).callInfo 4096 = .ofWord (label * 2 ^ 12 + length) := by
  simp [KState.callInfo, invokingThread, UserContext.msgInfo, UserContext.setMsgInfo, UserContext.setReg]

theorem invokingThread_invokes (label length : Nat) (words : List Word) (registers : UserContext)
    {which : InvocationLabel}
    (is : InvocationLabel.ofRaw (MessageInfo.ofWord (label * 2 ^ 12 + length)).label = some which) :
    Invokes (invokingThread label length words registers) 4096 65536 32768 which where
  current := rfl
  other := by decide
  buffer := rfl
  found := by
    have pointer : ((invokingThread label length words registers).threads.tcbs 4096).context.capReg .x8664 = 1 := by
      simp [invokingThread, UserContext.capReg, UserContext.setCapReg, UserContext.setMsgInfo, UserContext.setReg,
        Arch.capReg, Arch.msgInfo]
    exact ⟨slotAt 8192 1, by rw [show (invokingThread label length words registers).env.arch = .x8664 from rfl, pointer]; rfl⟩
  live := by decide
  label := by rw [invokingThread_callInfo]; exact is

/-- Three words are written and read back; the fourth word is as it was. -/
theorem registers_round_trip_three :
    ∃ s₁ s₃, doCall 4096 (invokingThread 3 5 [0, 3, 11, 22, 33] { regs := fun _ => 7 }) = .ok () s₁ ∧
      doCall 4096 (invokingThread 2 2 [0, 4] (s₁.threads.tcbs 65536).context) = .ok () s₃ ∧
      (List.range 4).map (s₃.sharedWord 4096 32768) = [11, 22, 33, 7] := by
  obtain ⟨s₁, wrote, reads⟩ := registers_round_trip (n := 3)
    (invokingThread_invokes 3 5 [0, 3, 11, 22, 33] { regs := fun _ => 7 } (by decide)) rfl rfl (by decide) (by decide)
    (by rw [invokingThread_callInfo]; decide)
  have env : s₁.env = (invokingThread 3 5 [0, 3, 11, 22, 33] { regs := fun _ => 7 }).env := by
    cases wrote
    rfl
  have read := reads (invokingThread 2 2 [0, 4] (s₁.threads.tcbs 65536).context) 4096 32768 4 ⟨env.symm, rfl⟩
    (invokingThread_invokes 2 2 [0, 4] _ (by decide)) rfl (by decide) (by decide)
    (by rw [invokingThread_callInfo]; decide)
  have stays : (invokingThread 2 2 [0, 4] (s₁.threads.tcbs 65536).context).sharedWord 4096 32768 0 = 0 := rfl
  rw [stays] at read
  obtain ⟨_, s₃, run, told⟩ := exists_ok_of_wp (wp_mono read (fun _ _ => id) fun _ _ set => absurd set (by decide))
  refine ⟨s₁, s₃, wrote, run, ?_⟩
  simp only [show List.range 4 = [0, 1, 2, 3] from rfl, List.map_cons, List.map_nil, told 0 (by decide), told 1 (by decide),
    told 2 (by decide), told 3 (by decide)]
  rfl

end Rel4
