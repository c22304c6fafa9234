import Rel4.Proof.HostKills

/-! The process tree: who is whose child, who has ended and how, and who has been reaped. -/

namespace Rel4.Host

open Lib
open Function (update update_idem update_of_ne update_self)

variable {procs : ProcTable} {nextPid : Nat} {ended : List (Nat × Int)} {reaps : List Reap} {orphan : Nat → Prop}
  {i : Fin maxProcs} {p : TaskStruct}

/-- Parents have not ended, except those whose children are being given to `init`; everybody ends once at most, and
who has ended is still there or has been reaped once. -/
structure Family (procs : ProcTable) (nextPid : Nat) (ended : List (Nat × Int)) (reaps : List Reap)
    (orphan : Nat → Prop) : Prop where
  init : Live procs 1
  parent : ∀ i, (procs i).state ≠ .unused → (procs i).pid ≠ 1 → orphan (procs i).parentPid ∨ Live procs (procs i).parentPid
  zombie : ∀ i, (procs i).state = .zombie → ((procs i).pid, (procs i).exitStatus) ∈ ended
  once : (ended.map Prod.fst).Nodup
  old : ∀ e ∈ ended, e.1 < nextPid
  dead : ∀ e ∈ ended, ¬ Live procs e.1
  rest : ∀ e ∈ ended, (∃ i, (procs i).state = .zombie ∧ (procs i).pid = e.1) ∨ ∃ r ∈ reaps, r.pid = e.1
  reaped : ∀ r ∈ reaps, (r.pid, r.status) ∈ ended ∧ ∀ i, (procs i).state ≠ .unused → (procs i).pid ≠ r.pid
  reapedOnce : (reaps.map Reap.pid).Nodup

/-- Whoever has the identifier of a process that has not ended has not ended. -/
theorem Named.alive_of_live (named : Named procs nextPid) (live : Live procs (procs i).pid)
    (used : (procs i).state ≠ .unused) : (procs i).Alive := by
  obtain ⟨j, same, alive⟩ := live
  cases named.inj j i alive.used used same
  exact alive

namespace Family

variable (family : Family procs nextPid ended reaps orphan)
include family

/-- A process that has ended is reaped. -/
theorem reap (named : Named procs nextPid) (zombie : (procs i).state = .zombie) (waiter : Nat) :
    Family (update procs i .empty) nextPid ended
      (reaps ++ [{ waiter, pid := (procs i).pid, status := (procs i).exitStatus }]) orphan := by
  have used : (procs i).state ≠ .unused := by rw [zombie]; decide
  have stays {pid : Nat} (live : Live procs pid) : Live (update procs i .empty) pid :=
    live.update fun _ alive => absurd zombie alive.not_zombie
  refine { family with
    init := stays family.init, parent := ?_, zombie := ?_, dead := ?_, rest := ?_, reaped := ?_, reapedOnce := ?_ }
  · intro j
    refine update_elim j (fun there => absurd rfl there) fun j _ there young => ?_
    exact (family.parent j there young).imp_right stays
  · exact fun j => update_elim j (fun is => by cases is) fun j _ => family.zombie j
  · rintro e member ⟨j, isPid, alive⟩
    refine family.dead e member ⟨j, ?_⟩
    revert isPid alive
    exact update_elim j (fun _ alive => absurd rfl alive.used) fun _ _ isPid alive => ⟨isPid, alive⟩
  · intro e member
    rcases family.rest e member with ⟨j, is, isPid⟩ | ⟨r, done, isPid⟩
    · by_cases here : j = i
      · subst here
        exact .inr ⟨_, List.mem_append_right _ List.mem_cons_self, isPid⟩
      · refine .inl ⟨j, ?_⟩
        rw [update_of_ne here]
        exact ⟨is, isPid⟩
    · exact .inr ⟨r, List.mem_append_left _ done, isPid⟩
  · intro r done
    rcases List.mem_append.mp done with done | done
    · refine ⟨(family.reaped r done).1, fun j => ?_⟩
      exact update_elim j (fun there => absurd rfl there) fun j _ => (family.reaped r done).2 j
    · cases List.mem_singleton.mp done
      refine ⟨family.zombie i zombie, fun j => ?_⟩
      refine update_elim j (fun there => absurd rfl there) fun j distinct there isPid => ?_
      exact distinct (named.inj j i there used isPid)
  · rw [List.map_append, List.nodup_append]
    refine ⟨family.reapedOnce, List.nodup_singleton _, ?_⟩
    intro pid before pid' here same
    obtain ⟨r, done, isPid⟩ := List.mem_map.mp before
    cases List.mem_singleton.mp here
    exact (family.reaped r done).2 i used (same.symm.trans isPid.symm)

/-- An entry changes, but neither who it is nor whether it has ended. -/
protected theorem update (isPid : p.pid = (procs i).pid)
    (isAlive : (procs i).Alive ↔ p.Alive) (isZombie : p.state = .zombie ↔ (procs i).state = .zombie)
    (isStatus : p.exitStatus = (procs i).exitStatus)
    (parent : p.parentPid = (procs i).parentPid ∨ Live procs p.parentPid) :
    Family (update procs i p) nextPid ended reaps orphan := by
  have isUsed : p.state ≠ .unused ↔ (procs i).state ≠ .unused := by
    unfold TaskStruct.Alive at isAlive
    cases first : p.state <;> cases second : (procs i).state <;> simp_all
  have stays {pid : Nat} (live : Live procs pid) : Live (update procs i p) pid :=
    live.update fun is alive => ⟨isPid.trans is, isAlive.mp alive⟩
  refine { family with
    init := stays family.init, parent := ?_, zombie := ?_, dead := ?_, rest := ?_, reaped := ?_ }
  · intro j
    refine update_elim j (fun there young => ?_) fun j _ there young => (family.parent j there young).imp_right stays
    rcases parent with same | live
    · rw [same]
      exact (family.parent i (isUsed.mp there) (isPid ▸ young)).imp_right stays
    · exact .inr (stays live)
  · intro j
    refine update_elim j (fun is => ?_) fun j _ => family.zombie j
    rw [isPid, isStatus]
    exact family.zombie i (isZombie.mp is)
  · rintro e member ⟨j, isE, alive⟩
    refine family.dead e member ⟨j, ?_⟩
    revert isE alive
    exact update_elim j (fun isE alive => ⟨isPid.symm.trans isE, isAlive.mpr alive⟩) fun _ _ isE alive => ⟨isE, alive⟩
  · intro e member
    refine (family.rest e member).imp_left fun ⟨j, is, isE⟩ => ⟨j, ?_⟩
    revert is isE
    exact update_elim j (fun is isE => ⟨isZombie.mpr is, isPid.trans isE⟩) fun _ _ is isE => ⟨is, isE⟩
  · intro r done
    refine ⟨(family.reaped r done).1, fun j => ?_⟩
    refine update_elim j (fun there => ?_) fun j _ => (family.reaped r done).2 j
    rw [isPid]
    exact (family.reaped r done).2 i (isUsed.mp there)

/-- A process other than `init` ends, and its children are without a parent for now. -/
theorem ends (named : Named procs nextPid)
    (none : ∀ pid, ¬ orphan pid) (alive : (procs i).Alive) (young : (procs i).pid ≠ 1) {status : Int}
    (isPid : p.pid = (procs i).pid) (isZombie : p.state = .zombie) (isStatus : p.exitStatus = status)
    (parent : p.parentPid = (procs i).parentPid) :
    Family (update procs i p) nextPid (ended ++ [((procs i).pid, status)]) reaps
      (fun pid => pid = (procs i).pid) := by
  have stays {pid : Nat} (live : Live procs pid) (other : pid ≠ (procs i).pid) :
      Live (update procs i p) pid :=
    live.update fun is _ => absurd is.symm other
  have back {pid : Nat} (live : Live (update procs i p) pid) : pid ≠ (procs i).pid ∧ Live procs pid := by
    obtain ⟨j, is, alive'⟩ := live
    revert is alive'
    refine update_elim j (fun _ alive' => absurd isZombie alive'.not_zombie) fun j distinct is alive' => ?_
    refine ⟨?_, j, is, alive'⟩
    rintro rfl
    exact distinct (named.inj j i alive'.used alive.used is)
  have first : ∀ e ∈ ended, e.1 ≠ (procs i).pid := fun e member same => family.dead e member ⟨i, same.symm, alive⟩
  refine ⟨stays family.init (Ne.symm young), ?_, ?_, ?_, ?_, ?_, ?_, ?_, family.reapedOnce⟩
  · intro j there young'
    have old : (procs j).state ≠ .unused ∧ (procs j).pid ≠ 1 ∧
        (update procs i p j).parentPid = (procs j).parentPid := by
      revert there young'
      exact update_elim j (fun _ _ => ⟨alive.used, young, parent⟩) fun _ _ there young' => ⟨there, young', rfl⟩
    rw [old.2.2]
    rcases family.parent j old.1 old.2.1 with gone | live
    · exact absurd gone (none _)
    · by_cases its : (procs j).parentPid = (procs i).pid
      · exact .inl its
      · exact .inr (stays live its)
  · intro j
    refine update_elim j (fun _ => ?_) fun j _ is => List.mem_append_left _ (family.zombie j is)
    rw [isPid, isStatus]
    exact List.mem_append_right _ List.mem_cons_self
  · rw [List.map_append, List.nodup_append]
    refine ⟨family.once, List.nodup_singleton _, ?_⟩
    intro pid before pid' here same
    obtain ⟨e, member, isE⟩ := List.mem_map.mp before
    cases List.mem_singleton.mp here
    exact first e member (isE.trans same)
  · intro e member
    rcases List.mem_append.mp member with member | member
    · exact family.old e member
    · cases List.mem_singleton.mp member
      exact named.below i alive.used
  · intro e member live
    rcases List.mem_append.mp member with member | member
    · exact family.dead e member (back live).2
    · cases List.mem_singleton.mp member
      exact (back live).1 rfl
  · intro e member
    rcases List.mem_append.mp member with member | member
    · refine (family.rest e member).imp_left fun ⟨j, is, isE⟩ => ⟨j, ?_⟩
      revert is isE
      exact update_elim j (fun is => absurd is alive.not_zombie) fun _ _ is isE => ⟨is, isE⟩
    · cases List.mem_singleton.mp member
      refine .inl ⟨i, ?_⟩
      rw [update_self]
      exact ⟨isZombie, isPid⟩
  · intro r done
    refine ⟨List.mem_append_left _ (family.reaped r done).1, fun j => ?_⟩
    refine update_elim j (fun _ => ?_) fun j _ => (family.reaped r done).2 j
    rw [isPid]
    exact (family.reaped r done).2 i alive.used

/-- A process that has not ended has a child. -/
theorem create (unused : (procs i).state = .unused) {parent : Nat} (live : Live procs parent) :
    Family (update procs i (.create nextPid parent)) (nextPid + 1) ended reaps orphan := by
  have stays {pid : Nat} (live : Live procs pid) : Live (update procs i (.create nextPid parent)) pid :=
    live.update fun _ alive => absurd unused alive.used
  refine { family with
    init := stays family.init, parent := ?_, zombie := ?_, old := ?_, dead := ?_, rest := ?_, reaped := ?_ }
  · intro j
    exact update_elim j (fun _ _ => .inr (stays live)) fun j _ there young =>
      (family.parent j there young).imp_right stays
  · exact fun j => update_elim j (fun is => by cases is) fun j _ => family.zombie j
  · exact fun e member => Nat.lt_succ_of_lt (family.old e member)
  · rintro e member ⟨j, isE, alive⟩
    revert isE alive
    refine update_elim j (fun isE _ => ?_) fun j _ isE alive => family.dead e member ⟨j, isE, alive⟩
    exact absurd isE (Nat.ne_of_gt (family.old e member))
  · intro e member
    refine (family.rest e member).imp_left fun ⟨j, is, isE⟩ => ⟨j, ?_⟩
    revert is isE
    exact update_elim j (fun is => by cases unused.symm.trans is) fun _ _ is isE => ⟨is, isE⟩
  · intro r done
    refine ⟨(family.reaped r done).1, fun j => ?_⟩
    refine update_elim j (fun _ => ?_) fun j _ => (family.reaped r done).2 j
    exact Nat.ne_of_gt (family.old _ (family.reaped r done).1)

end Family

/-- The calls that change the tree in the name of their own process. -/
def Request.changes : Request → Bool
  | .fork | .exit _ | .wait4 _ _ _ | .fault => true
  | .kill _ | .other => false

namespace Processes

variable {s : Processes} {copies : Copies} {past : List (Nat × Int)} {pid slot : Nat} {status : Int} {j : Fin maxProcs}

/-- The family of a table, which remembers who had ended before. -/
structure Kin (s : Processes) (past : List (Nat × Int)) (orphan : Nat → Prop) : Prop where
  named : Named s.procs s.nextPid
  family : Family s.procs s.nextPid s.ended s.reaps orphan
  past : ∀ e ∈ past, e ∈ s.ended

theorem Kin.reap (kin : s.Kin past orphan) (zombie : (s.procs j).state = .zombie) (waiter : Nat) :
    (s.reapProcess j waiter).Kin past orphan :=
  ⟨kin.named.clear, kin.family.reap kin.named zombie waiter, kin.past⟩

theorem Kin.answer (kin : s.Kin past orphan) (waiting : (s.procs i).state = .waiting) :
    (s.answerWait i).Kin past orphan := by
  have used : (s.procs i).state ≠ .unused := by rw [waiting]; decide
  unfold answerWait sendAndRelease setProc
  refine ⟨?_, ?_, ?_⟩
  · simp only [release_procs, release_nextPid, send]
    exact kin.named.update used rfl (kin.named.parent_lt i used)
  · simp only [release_procs, release_nextPid, release_ended, release_reaps, send]
    refine kin.family.update rfl ⟨fun _ => .inl rfl, fun _ => .inr waiting⟩ ⟨fun is => (by cases is), fun is => ?_⟩ rfl
      (.inl rfl)
    cases waiting.symm.trans is
  · simp only [release_ended, send]
    exact kin.past

theorem Kin.kept : Kept (fun _ => False) fun s => s.Kin past orphan :=
  ⟨fun _ _ waiter kin zombie _ => kin.reap zombie waiter, fun _ _ kin waiting => kin.answer waiting⟩

/-- `init` takes a child over. -/
theorem Kin.adopt (kin : s.Kin past orphan) (child : (s.procs j).parentPid = pid) (positive : 0 < pid)
    (used : (s.procs j).state ≠ .unused) : (s.setProc j { s.procs j with parentPid := 1 }).Kin past orphan := by
  have younger : 1 < (s.procs j).pid := by
    have := kin.named.parent_lt j used
    omega
  exact ⟨kin.named.update used rfl younger, kin.family.update rfl Iff.rfl Iff.rfl rfl (.inr kin.family.init), kin.past⟩

section Fostered

variable {exitingPid : Nat}

/-- An entry is not, or no longer, of a child of the exiting process. -/
def Fostered (exitingPid : Nat) (j : Fin maxProcs) (s : Processes) : Prop :=
  (s.procs j).state ≠ .unused → (s.procs j).parentPid ≠ exitingPid

theorem Fostered.kept : Kept (fun _ => False) (Fostered exitingPid j) := by
  refine ⟨fun s k waiter other _ _ => ?_, fun s k other waiting => ?_⟩ <;> unfold Fostered at other ⊢ <;> revert other
  · change _ → (update s.procs k .empty j).state ≠ .unused → (update s.procs k .empty j).parentPid ≠ exitingPid
    exact update_elim j (fun _ there => absurd rfl there) fun _ _ => id
  · rw [answerWait_procs]
    exact update_elim j (fun other _ => other (by rw [waiting]; decide)) fun _ _ => id

theorem Fostered.adopt (young : exitingPid ≠ 1) {k : Fin maxProcs} (other : j ≠ k → Fostered exitingPid j s) :
    Fostered exitingPid j (s.setProc k { s.procs k with parentPid := 1 }) := by
  unfold Fostered at other ⊢
  revert other
  change _ → (update s.procs k _ j).state ≠ .unused → (update s.procs k _ j).parentPid ≠ exitingPid
  exact update_elim j (fun _ _ => Ne.symm young) fun _ distinct other => other distinct

/-- The turn of an entry sees to it. -/
theorem Fostered.turn (young : exitingPid ≠ 1) : Fostered exitingPid j (s.reparentChild copies exitingPid j) := by
  unfold reparentChild
  split
  · have here : Fostered exitingPid j (s.setProc j { s.procs j with parentPid := 1 }) :=
      .adopt young fun distinct => absurd rfl distinct
    dsimp only
    split
    · exact Fostered.kept.replyWaitingParent here ‹_› id
    · exact here
  · rename_i other
    exact fun there child => other ⟨child, there⟩

/-- When the loop is over, nobody is left a child of the exiting process. -/
theorem reparentChildren_fostered (young : exitingPid ≠ 1) (j : Fin maxProcs) :
    Fostered exitingPid j (s.reparentChildren copies exitingPid) := by
  suffices all : ∀ (list : List (Fin maxProcs)) (s : Processes), (j ∈ list ∨ Fostered exitingPid j s) →
      Fostered exitingPid j (list.foldl (fun s i => s.reparentChild copies exitingPid i) s) by
    unfold reparentChildren
    exact all (List.finRange maxProcs) s (.inl (List.mem_finRange j))
  intro list
  induction list with
  | nil =>
    rintro s (member | other)
    · cases member
    · exact other
  | cons k rest ih =>
    intro s either
    refine ih _ ?_
    rcases either with member | other
    · rcases List.mem_cons.mp member with rfl | later
      · exact .inr (.turn young)
      · exact .inl later
    · exact .inr (Fostered.kept.reparentChild (fun _ _ _ => False.elim)
        (fun s k other _ _ => .adopt young fun _ => other) other k)

end Fostered

/-- A process other than `init` ends, and everybody has a parent again. -/
theorem Kin.makeZombieProcess (kin : s.Kin past fun _ => False) (alive : (s.procs i).Alive)
    (young : (s.procs i).pid ≠ 1) (copies : Copies) (status : Int) :
    (s.makeZombieProcess copies i status).Kin past fun _ => False := by
  have used := alive.used
  have positive : 0 < (s.procs i).pid := Nat.lt_of_le_of_lt (Nat.zero_le _) (kin.named.parent_lt i used)
  have zombified : ((s.dropBlockedReplyCaps i).zombify i status).Kin past fun pid => pid = (s.procs i).pid := by
    unfold dropBlockedReplyCaps
    split
    · unfold stopAndRelease zombify setProc
      simp only [release_procs, release_nextPid, release_ended, release_reaps, send, update_idem,
        update_self]
      refine ⟨?_, ?_, ?_⟩
      · exact kin.named.update used rfl (kin.named.parent_lt i used)
      · exact kin.family.ends kin.named (fun _ => id) alive young rfl rfl rfl rfl
      · exact fun e before => List.mem_append_left _ (by simpa using kin.past e before)
    · refine ⟨kin.named.update used rfl (kin.named.parent_lt i used), ?_, ?_⟩
      · exact kin.family.ends kin.named (fun _ => id) alive young rfl rfl rfl rfl
      · exact fun e before => List.mem_append_left _ (kin.past e before)
  unfold Processes.makeZombieProcess
  have looped : (((s.dropBlockedReplyCaps i).zombify i status).reparentChildren copies (s.procs i).pid).Kin past
      fun pid => pid = (s.procs i).pid :=
    Kin.kept.reparentChildren (fun _ _ _ => False.elim)
      (fun s' j kin child used' => kin.adopt child positive used') zombified
  -- The loop has found a parent for every child.
  have settled : (((s.dropBlockedReplyCaps i).zombify i status).reparentChildren copies (s.procs i).pid).Kin past
      fun _ => False := by
    refine ⟨looped.named, { looped.family with parent := fun j there young' => ?_ }, looped.past⟩
    rcases looped.family.parent j there young' with orphan | live
    · exact absurd orphan (reparentChildren_fostered young j there)
    · exact .inr live
  exact Kin.kept.replyWaitingParent settled (reparentChildren_zombie (Nat.ne_of_lt (kin.named.parent_lt i used))) id

section Calls

variable {answers : Answers} {task : HostTask} {host : Processes} {result : Option SyscallResult}

/-- A kill hits a process that has not ended, and not `init`. -/
def KillsLive (s : Processes) (target : Int) : Prop :=
  0 < target → ∀ i, s.findProc target.toNat = some i → (s.procs i).Alive ∧ (s.procs i).pid ≠ 1

/-- The section of a call of a process that has not ended. -/
theorem Kin.act (kin : s.Kin past fun _ => False) (live : task.request.changes = true → Live s.procs task.pid)
    (kills : ∀ target, task.request = .kill target → s.KillsLive target)
    (done : s.act slot task answers = (host, result)) : host.Kin past fun _ => False := by
  have its {i : Fin maxProcs} (isPid : (s.procs i).pid = task.pid) (used : (s.procs i).state ≠ .unused)
      (changes : task.request.changes = true) : (s.procs i).Alive :=
    kin.named.alive_of_live (isPid ▸ live changes) used
  -- Only `init` has no parent.
  have young {i : Fin maxProcs} (used : (s.procs i).state ≠ .unused) (child : ¬ (s.procs i).parentPid = 0) :
      (s.procs i).pid ≠ 1 := by
    have := kin.named.parent_lt i used
    omega
  have suspended (pid : Nat) : (s.suspend pid).Kin past fun _ => False := ⟨kin.named, kin.family, kin.past⟩
  cases acted_of_act done with
  | kept | unhandled => exact kin
  | skip =>
    exact ⟨kin.named.skip, { kin.family with
      old := fun e member => Nat.lt_succ_of_lt (kin.family.old e member) }, kin.past⟩
  | fork i j request isPid used free =>
    exact ⟨kin.named.create (kin.named.below i used),
      kin.family.create free ⟨i, rfl, its isPid used (by rw [request]; rfl)⟩, kin.past⟩
  | initEnded => exact ⟨kin.named, kin.family, kin.past⟩
  | exit i status request isPid used child =>
    exact kin.makeZombieProcess (its isPid used (by rw [request]; rfl)) (young used child) _ _
  | fault i request isPid used child =>
    exact (suspended _).makeZombieProcess (its isPid used (by rw [request]; rfl)) (young used child) _ _
  | kill i target request positive found =>
    obtain ⟨alive, young⟩ := kills target request positive i found
    exact (suspended _).makeZombieProcess alive young _ _
  | reap i j zombie => exact kin.reap zombie _
  | block i waitPid statusPtr changes isPid used =>
    have alive := its isPid used (by obtain ⟨_, request⟩ := changes; rw [request]; rfl)
    refine ⟨kin.named.update used rfl (kin.named.parent_lt i used), ?_, kin.past⟩
    exact kin.family.update rfl ⟨fun _ => .inr rfl, fun _ => alive⟩
      ⟨fun is => (by cases is), fun is => absurd is alive.not_zombie⟩ rfl (.inl rfl)

/-- Every process was there before. -/
def NoNew (s host : Processes) : Prop :=
  ∀ j, (host.procs j).state ≠ .unused → ∃ i, (s.procs i).state ≠ .unused ∧ (s.procs i).pid = (host.procs j).pid

protected theorem NoNew.update {s' : Processes} {p : TaskStruct} (old : s.NoNew s') (isPid : p.pid = (s'.procs i).pid)
    (isUsed : p.state ≠ .unused → (s'.procs i).state ≠ .unused) : s.NoNew (s'.setProc i p) := by
  intro j
  show (update s'.procs i p j).state ≠ .unused → ∃ k, _ ∧ _ = (update s'.procs i p j).pid
  refine update_elim j (fun used => ?_) fun j _ => old j
  rw [isPid]
  exact old i (isUsed used)

theorem NoNew.kept : Kept (fun _ => False) s.NoNew := by
  refine ⟨fun s' j waiter old zombie _ k => ?_, fun s' i old waiting => ?_⟩
  · show (update s'.procs j .empty k).state ≠ .unused → ∃ i, _ ∧ _ = (update s'.procs j .empty k).pid
    exact update_elim k (fun used => absurd rfl used) fun k _ => old k
  · have answered : s.NoNew (s'.setProc i { (s'.procs i).clearWaitBlock with state := .runnable }) :=
      old.update rfl fun _ => by rw [waiting]; decide
    intro j
    rw [answerWait_procs]
    exact answered j

theorem NoNew.makeZombieProcess {s' : Processes} (old : s.NoNew s') (used : (s'.procs i).state ≠ .unused)
    (other : (s'.procs i).parentPid ≠ (s'.procs i).pid) (copies : Copies) (status : Int) :
    s.NoNew (s'.makeZombieProcess copies i status) := by
  refine NoNew.kept.makeZombieProcess other (fun s'' j old _ _ => old.update rfl id) ?_
  have dropped : s.NoNew (s'.dropBlockedReplyCaps i) ∧ ((s'.dropBlockedReplyCaps i).procs i).state ≠ .unused := by
    unfold dropBlockedReplyCaps
    split
    · have same : (s'.stopAndRelease (s'.procs i).waitReplySlot).procs = s'.procs := by simp [stopAndRelease, send]
      refine ⟨NoNew.update (fun j => by rw [same]; exact old j) rfl id, ?_⟩
      simpa [setProc, same, TaskStruct.clearWaitBlock] using used
    · exact ⟨old, used⟩
  exact dropped.1.update rfl fun _ => dropped.2

/-- Only a fork makes processes. -/
theorem act_noNew (named : Named s.procs s.nextPid) (other : task.request ≠ .fork)
    (done : s.act slot task answers = (host, result)) : s.NoNew host := by
  have here : s.NoNew s := fun j used => ⟨j, used, rfl⟩
  have younger {i : Fin maxProcs} (used : (s.procs i).state ≠ .unused) : (s.procs i).parentPid ≠ (s.procs i).pid :=
    Nat.ne_of_lt (named.parent_lt i used)
  cases acted_of_act done with
  | kept | unhandled | initEnded => exact here
  | skip _ request | fork _ _ request => exact absurd request other
  | exit i status request isPid used => exact here.makeZombieProcess used (younger used) _ _
  | fault i request isPid used =>
    have suspended : s.NoNew (s.suspend (s.procs i).pid) := here
    exact suspended.makeZombieProcess used (younger used) _ _
  | kill i target request positive found =>
    have used := (findProc_spec found).2
    have suspended : s.NoNew (s.suspend (s.procs i).pid) := here
    exact suspended.makeZombieProcess used (younger used) _ _
  | reap i j zombie => exact NoNew.kept.reap s j _ here zombie id
  | block i waitPid statusPtr changes isPid used => exact here.update rfl fun _ => used

end Calls

end Processes

/-- The calls to be carried out that change the tree in the name of their own process. -/
def DueKind.changing : DueKind where
  due request stage := request.changes ∧ (stage = .spawned ∨ stage = .looked ∨ stage = .faulted)
  of_looked _ due := decide_eq_true ⟨(of_decide_eq_true due).1, .inl rfl⟩
  of_faulted _ due := decide_eq_true ⟨(of_decide_eq_true due).1, .inr (.inl rfl)⟩
  not_returned _ _ := decide_eq_false fun due => by rcases due.2 with is | is | is <;> cases is
  not_answering _ _ := decide_eq_false fun due => by rcases due.2 with is | is | is <;> cases is
  not_sent _ := decide_eq_false fun due => by rcases due.2 with is | is | is <;> cases is

namespace HostSystem

variable {Worker : Type} (s : HostSystem Worker)

/-- If the move is a kill, then its target has not ended and is not `init`. -/
def killsLive (move : HostMove Worker) : Bool :=
  match move with
  | .act thread _ =>
    match s.polling thread with
    | some slot =>
      match s.tasks slot with
      | some task =>
        match task.request with
        | .kill target =>
          match s.host.findProc target.toNat with
          | some i => target ≤ 0 || (s.host.procs i).state != .zombie && (s.host.procs i).pid != 1
          | none => true
        | _ => true
      | none => true
    | none => true
  | _ => true

/-- A kill hits a process other than `init` that has not ended, and has no call to be carried out that changes the
tree in its own name. -/
def orderly (move : HostMove Worker) : Bool := s.spares .changing move && s.killsLive move

variable {s} {s' : HostSystem Worker} {past : List (Nat × Int)}

theorem killsLive_act {thread : Option Worker} {answers : Answers} {slot : Nat} {task : HostTask} {target : Int}
    (ok : s.killsLive (.act thread answers) = true) (polls : s.polling thread = some slot)
    (there : s.tasks slot = some task) (request : task.request = .kill target) : s.host.KillsLive target := by
  intro positive i found
  simp only [killsLive, polls, there, request, found] at ok
  have known := (Processes.findProc_spec found).2
  have ok : (s.host.procs i).state ≠ .zombie ∧ (s.host.procs i).pid ≠ 1 := by
    simpa [Int.not_le.mpr positive] using ok
  refine ⟨?_, ok.2⟩
  unfold TaskStruct.Alive
  cases state : (s.host.procs i).state <;> simp_all

/-- Every orderly move keeps the family in order, and forgets nobody who has ended. -/
theorem kin_of_step [DecidableEq Worker] {move : HostMove Worker} (kin : s.host.Kin past fun _ => False)
    (live : s.DueLive .changing) (taken : s.step move = some s') (ok : s.orderly move = true) :
    s'.host.Kin past fun _ => False := by
  obtain ⟨-, stepped⟩ := stepped_of_step taken
  have released (slot : Nat) : (s.host.release slot).Kin past fun _ => False := by
    refine ⟨?_, ?_, ?_⟩
    · rw [Processes.release_procs, Processes.release_nextPid]
      exact kin.named
    · rw [Processes.release_procs, Processes.release_nextPid, Processes.release_ended, Processes.release_reaps]
      exact kin.family
    · rw [Processes.release_ended]
      exact kin.past
  cases stepped with
  | call | exhausted | acquire | recv | spawn | poll | rest | lost | look | check | send =>
    exact ⟨kin.named, kin.family, kin.past⟩
  | recvOther => exact released _
  | release => exact released _
  | acted polls there stage done =>
    rw [settle_host]
    refine kin.act (fun changes => live.tasks _ _ ((taskDue_iff there).mpr ⟨rfl, ?_⟩))
      (fun target => killsLive_act (Bool.and_eq_true_iff.mp ok).2 polls there) done
    exact decide_eq_true ⟨changes, .inr stage⟩

theorem start_kin (caps : ReplySlots) : (Processes.start caps).Kin [] fun _ => False := by
  refine ⟨start_named caps, ⟨?_, fun i => ?_, fun i => ?_, .nil, fun _ none => (by cases none),
    fun _ none => (by cases none), fun _ none => (by cases none), fun _ none => (by cases none), .nil⟩,
    fun _ none => (by cases none)⟩ <;> dsimp only [Processes.start]
  · refine ⟨⟨0, by decide⟩, ?_⟩
    rw [update_self]
    exact ⟨rfl, .inl rfl⟩
  · exact update_elim i (fun _ young => absurd rfl young) fun _ _ used => absurd rfl used
  · exact update_elim i (fun is => by cases is) fun _ _ is => by cases is

section Runs

variable [DecidableEq Worker] {caps : ReplySlots}

theorem kin_of_run (run : Run step (fun s move => s.orderly move = true) (start caps) s) :
    (s.Sound ∧ s.DueLive .changing) ∧ s.host.Kin [] fun _ => False := by
  refine run.keeps (fun s => (s.Sound ∧ s.DueLive .changing) ∧ s.host.Kin [] fun _ => False)
    ⟨⟨start_sound caps, start_dueLive caps⟩, start_kin caps⟩ ?_
  rintro s move s' ⟨⟨sound, live⟩, kin⟩ taken ok
  have spares := (Bool.and_eq_true_iff.mp ok).1
  exact ⟨⟨sound.step taken, live.step sound taken spares⟩, kin_of_step kin live taken ok⟩

/-- Who has ended stays as it is until it is reaped. -/
theorem zombie_stays {move : HostMove Worker} (kin : s.host.Kin [] fun _ => False) (live : s.DueLive .changing)
    (taken : s.step move = some s') (ok : s.orderly move = true) {i j : Fin maxProcs}
    (zombie : (s.host.procs i).state = .zombie) (used : (s'.host.procs j).state ≠ .unused)
    (same : (s'.host.procs j).pid = (s.host.procs i).pid) :
    (s'.host.procs j).state = .zombie ∧ (s'.host.procs j).exitStatus = (s.host.procs i).exitStatus := by
  have remembers : s.host.Kin s.host.ended fun _ => False := ⟨kin.named, kin.family, fun _ => id⟩
  have after := kin_of_step remembers live taken ok
  have before := after.past _ (kin.family.zombie i zombie)
  have dead : ¬ (s'.host.procs j).Alive := fun alive => after.family.dead _ before ⟨j, same, alive⟩
  have zombie' : (s'.host.procs j).state = .zombie := by
    unfold TaskStruct.Alive at dead
    cases state : (s'.host.procs j).state <;> simp_all
  refine ⟨zombie', ?_⟩
  -- It has ended once, so that both are the status it has ended with.
  have now := after.family.zombie j zombie'
  rw [same] at now
  exact congrArg Prod.snd (List.inj_on_of_nodup_map after.family.once now before rfl)

/-- No call of a process that has ended makes another one. -/
theorem zombie_makes_none {thread : Option Worker} {answers : Answers} {slot : Nat} {task : HostTask}
    (kin : s.host.Kin [] fun _ => False) (live : s.DueLive .changing) (taken : s.step (.act thread answers) = some s')
    {i : Fin maxProcs} (zombie : (s.host.procs i).state = .zombie) (polls : s.polling thread = some slot)
    (there : s.tasks slot = some task) (isPid : task.pid = (s.host.procs i).pid) : s.host.NoNew s'.host := by
  obtain ⟨-, stepped⟩ := stepped_of_step taken
  cases stepped with
  | acted polls' there' stage done =>
    cases polls.symm.trans polls'
    cases there.symm.trans there'
    rw [settle_host]
    refine Processes.act_noNew kin.named (fun isFork => ?_) done
    -- A fork would be of a process that has not ended.
    have alive : Live s.host.procs task.pid :=
      live.tasks slot task.pid ((taskDue_iff there).mpr ⟨rfl, decide_eq_true ⟨by rw [isFork]; rfl, .inr stage⟩⟩)
    rw [isPid] at alive
    exact (kin.named.alive_of_live alive (by rw [zombie]; decide)).not_zombie zombie

/-- If every kill is orderly: parents are there and have not ended; who has ended neither changes its status nor runs
again, and no call of it makes a process; and whoever has ended, once, is there to be reaped or has been reaped by one
wait, which reports its status. -/
theorem tree_consistent (run : Run step (fun s move => s.orderly move = true) (start caps) s) :
    (∀ i, (s.host.procs i).state ≠ .unused → (s.host.procs i).pid ≠ 1 →
      ∃ j, (s.host.procs j).pid = (s.host.procs i).parentPid ∧ (s.host.procs j).state ≠ .unused ∧
        (s.host.procs j).state ≠ .zombie) ∧
    (∀ move s', s.orderly move = true → s.step move = some s' → ∀ i, (s.host.procs i).state = .zombie →
      (∀ j, (s'.host.procs j).state ≠ .unused → (s'.host.procs j).pid = (s.host.procs i).pid →
        (s'.host.procs j).state = .zombie ∧ (s'.host.procs j).exitStatus = (s.host.procs i).exitStatus) ∧
      ∀ thread answers slot task, move = .act thread answers → s.polling thread = some slot →
        s.tasks slot = some task → task.pid = (s.host.procs i).pid → s.host.NoNew s'.host) ∧
    (s.host.ended.map Prod.fst).Nodup ∧
    ∀ pid status, (pid, status) ∈ s.host.ended →
      (∃ i, (s.host.procs i).state = .zombie ∧ (s.host.procs i).pid = pid ∧ (s.host.procs i).exitStatus = status ∧
        pid ∉ s.host.reaps.map Reap.pid) ∨
      ((s.host.reaps.map Reap.pid).count pid = 1 ∧ (∃ waiter, ⟨waiter, pid, status⟩ ∈ s.host.reaps) ∧
        ∀ i, (s.host.procs i).state ≠ .unused → (s.host.procs i).pid ≠ pid) := by
  obtain ⟨⟨sound, live⟩, kin⟩ := kin_of_run run
  have family := kin.family
  refine ⟨fun i used young => ?_, fun move s' ok taken i zombie => ⟨fun j => ?_, ?_⟩, family.once,
    fun pid status member => ?_⟩
  · rcases family.parent i used young with orphan | ⟨j, isPid, alive⟩
    · cases orphan
    · exact ⟨j, isPid, alive.used, alive.not_zombie⟩
  · exact zombie_stays kin live taken ok zombie
  · rintro thread answers slot task rfl polls there isPid
    exact zombie_makes_none kin live taken zombie polls there isPid
  · -- It has ended once, so that the status is the one it has ended with.
    have same {status' : Int} (member' : (pid, status') ∈ s.host.ended) : status' = status :=
      congrArg Prod.snd (List.inj_on_of_nodup_map family.once member' member rfl)
    rcases family.rest _ member with ⟨i, zombie, isPid⟩ | ⟨r, done, isPid⟩
    · have isPid : (s.host.procs i).pid = pid := isPid
      refine .inl ⟨i, zombie, isPid, same (isPid ▸ family.zombie i zombie), fun reaped => ?_⟩
      obtain ⟨r, done, isPid'⟩ := List.mem_map.mp reaped
      exact (family.reaped r done).2 i (by rw [zombie]; decide) (isPid.trans isPid'.symm)
    · obtain ⟨waiter, pid', status'⟩ := r
      cases isPid
      obtain ⟨member', gone⟩ := family.reaped _ done
      cases same member'
      exact .inr ⟨List.count_eq_one_of_mem family.reapedOnce (List.mem_map.mpr ⟨_, done, rfl⟩), ⟨waiter, done⟩, gone⟩

end Runs

section Sample

/-- One child is to fork, and the other kills it before. -/
def killedForking : List (HostMove (Fin numWorkerThreads)) :=
  twoChildren ++ asks 3 (.kill 2) ++ asks 2 .fork ++ carries none 72 ++ finishes none ++ carries none 71

theorem killedForking_made : (moves step (start sampleSlots) killedForking).isSome = true := by decide +kernel

/-- A process that has ended has become a parent. -/
theorem zombie_has_child : ∃ s : HostSystem (Fin numWorkerThreads), Run step (fun _ _ => True) (start sampleSlots) s ∧
    (s.host.procs ⟨1, by decide⟩).state = .zombie ∧ (s.host.procs ⟨3, by decide⟩).state = .runnable ∧
    (s.host.procs ⟨3, by decide⟩).parentPid = (s.host.procs ⟨1, by decide⟩).pid :=
  ⟨_, Run.start.of_moves _ (Option.some_get killedForking_made).symm, by decide +kernel, by decide +kernel,
    by decide +kernel⟩

/-- A child exits, another one is killed, and `init` waits for one of them. -/
def bothEnd : List (HostMove (Fin numWorkerThreads)) :=
  twoChildren ++ asks 2 (.exit 3) ++ carries none 72 ++ [.send none, .release none] ++ asks 3 (.kill 3) ++
    carries none 72 ++ finishes none ++ asks 1 (.wait4 2 0 false) ++ carries none 72

theorem bothEnd_made :
    (moves (guarded step orderly) (start sampleSlots) bothEnd).isSome = true := by decide +kernel

theorem tree_consistent_sample : ∃ s : HostSystem (Fin numWorkerThreads),
    Run step (fun s move => s.orderly move = true) (start sampleSlots) s ∧
      s.host.ended = [(2, 768), (3, 256)] ∧ s.host.reaps = [{ waiter := 1, pid := 2, status := 768 }] ∧
      (s.host.ended.map Prod.fst).Nodup := by
  have run := Run.of_guarded .start _ (Option.some_get bothEnd_made).symm
  exact ⟨_, run, by decide +kernel, by decide +kernel, (tree_consistent run).2.2.1⟩

end Sample

end HostSystem

end Rel4.Host
