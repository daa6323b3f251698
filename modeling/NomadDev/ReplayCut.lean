import NomadDev.ResumeStale

namespace NomadDev.Resume

open Session Foundation.Transition Function List

variable {s s' u : State} {c t : ℕ} {k : Conn} {as : List Action}

def replaySent (c : ℕ) (s : State) : Action → List Envelope
  | .replay d =>
    if d = c then ((s.conns c).bind fun k => if k.send.length < sendBuf then k.replay.head? else none).toList else []
  | _ => []

def taskSent (t : ℕ) (s : State) : Action → List Envelope
  | .send r => if r = t then ((s.tasks t).map Task.env).toList else []
  | _ => []

def Reserves (c t : ℕ) : Action → Prop
  | .clientHello d r => d ≠ c ∧ r ≠ t
  | .greet _ r => r ≠ t
  | .emit _ r _ => r ≠ t
  | _ => True

instance (c t : ℕ) : DecidablePred (Reserves c t)
  | .clientHello d r => inferInstanceAs (Decidable (d ≠ c ∧ r ≠ t))
  | .greet _ r => inferInstanceAs (Decidable (r ≠ t))
  | .emit _ r _ => inferInstanceAs (Decidable (r ≠ t))
  | .connect .. | .start _ | .append .. | .send _ | .done _ | .drop _ | .drain _ | .writeFail _ | .pumpExit _
  | .close _ | .leave _ | .cut _ | .deliver _ | .hubRegister | .hubUnregister | .resume .. | .replay _ =>
    inferInstanceAs (Decidable True)

def Returned (c t : ℕ) (s : State) : Prop := s.tasks t = none ∧ ∀ k, s.conns c = some k → k.replay = []

def TakesSend (c t : ℕ) (owed : List Envelope) (s : State) : Action → Prop
  | .replay d => d = c → ∀ k, s.conns c = some k → k.send.length < sendBuf
  | .done r => r = t → owed = []
  | .drop r => r = t → owed = []
  | _ => True

variable {d r : ℕ} {a : Action}

def KeepsReplay (c : ℕ) (s s' : State) : Prop :=
  ∀ k, s.conns c = some k → ∃ k', s'.conns c = some k' ∧ k'.replay = k.replay

theorem KeepsReplay.of_conns_eq (h : s'.conns = s.conns) : KeepsReplay c s s' := by
  intro k hk
  exact ⟨k, by rw [h, hk], rfl⟩

theorem KeepsReplay.of_update {kd kd' : Conn} (h : s'.conns = update s.conns d (some kd'))
    (hd : s.conns d = some kd) (hreplay : kd'.replay = kd.replay) : KeepsReplay c s s' := by
  intro k hk
  rw [h]
  by_cases hc : c = d
  · subst hc
    cases hk.symm.trans hd
    exact ⟨kd', update_self .., hreplay⟩
  · exact ⟨k, by rwa [update_of_ne hc], rfl⟩

theorem KeepsReplay.of_ne {kd' : Option Conn} (h : s'.conns = update s.conns d kd') (hd : d ≠ c) :
    KeepsReplay c s s' := by
  intro k hk
  exact ⟨k, by rwa [h, update_of_ne (Ne.symm hd)], rfl⟩

theorem step_keepsReplay (h : step s a = some s') (hreplay : a ≠ .replay c) (ha : Reserves c t a) :
    KeepsReplay c s s' := by
  cases moved_of_step h with
  | connect hnone =>
    intro k hk
    refine KeepsReplay.of_ne rfl ?_ k hk
    rintro rfl
    cases hnone.symm.trans hk
  | emit | append | done | drop | hubRegister | hubUnregister => exact .of_conns_eq rfl
  | greet hk | start hk | drain hk | writeFail hk | pumpExit hk | close hk | leave hk | cut hk | deliver hk | resume hk
  | clientHello hk | helloStale hk => exact .of_update rfl hk rfl
  | send _ _ hk => exact .of_update rfl hk rfl
  | hubClose _ _ _ hk => exact .of_update rfl hk rfl
  | hubReplace _ _ _ _ _ hk =>
    refine .of_update rfl hk ?_
    split <;> rfl
  | helloReplay => exact .of_ne rfl ha.1
  | replay | replayEnds =>
    refine .of_ne rfl ?_
    rintro rfl
    exact hreplay rfl

def Owns (t : ℕ) : Action → Prop
  | .append r _ => r = t
  | .send r => r = t
  | .done r => r = t
  | .drop r => r = t
  | _ => False

theorem step_task_eq (h : step s a = some s') (ha : Reserves c t a) (hown : ¬ Owns t a) : s'.tasks t = s.tasks t := by
  cases moved_of_step h with
  | greet | emit => exact update_of_ne (Ne.symm ha) _ _
  | helloStale => exact update_of_ne (Ne.symm ha.2) _ _
  | append | send | done | drop => exact update_of_ne (Ne.symm hown) _ _
  | _ => rfl

theorem selectSend_tasks {exit : Envelope → Conn → Option Conn} (h : selectSend s r exit = some s') :
    s'.tasks = update s.tasks r none := by
  obtain ⟨task, k, k', -, -, -, -, rfl⟩ := selectSend_eq_some h
  rfl

theorem owns_task (h : step s a = some s') (hown : Owns t a) : ∃ task, s.tasks t = some task := by
  cases moved_of_step h with
  | append ht | send ht | done ht | drop ht =>
    cases hown
    exact ⟨_, ht⟩
  | _ => exact hown.elim

theorem not_owns_of_idle (h : step s a = some s') (htask : s.tasks t = none) : ¬ Owns t a := by
  intro hown
  obtain ⟨task, hsome⟩ := owns_task h hown
  cases htask.symm.trans hsome

theorem taskSent_eq_nil (h : ¬ Owns t a) : taskSent t s a = [] := by
  cases a with
  | send r => exact if_neg h
  | _ => rfl

theorem replaySent_eq_nil (h : a ≠ .replay c) : replaySent c s a = [] := by
  cases a with
  | replay d =>
    refine if_neg ?_
    rintro rfl
    exact h rfl
  | _ => rfl

theorem takesSend_of_other {owed : List Envelope} (hreplay : a ≠ .replay c) (hown : ¬ Owns t a) :
    TakesSend c t owed s a := by
  cases a with
  | replay d =>
    rintro rfl
    exact absurd rfl hreplay
  | done r | drop r => exact fun hr => absurd hr hown
  | _ => trivial

theorem replay_run_iff (owed : List Envelope) (hk : s.conns c = some k) (htask : s.tasks t = none)
    (hrun : run step s as = some u) (hown : ∀ a ∈ as, Reserves c t a) (hret : Returned c t u) :
    outputs step (replaySent c) s as <+: k.replay ∧ outputs step (taskSent t) s as = [] ∧
      (outputs step (replaySent c) s as = k.replay ↔ Steps step (TakesSend c t owed) s as u) := by
  induction as generalizing s k with
  | nil =>
    cases hrun
    refine ⟨List.nil_prefix, rfl, iff_of_true (hret.2 k hk).symm (.nil _)⟩
  | cons a as ih =>
    obtain ⟨v, hv, hrest⟩ := Option.bind_eq_some_iff.mp hrun
    have ha := hown a mem_cons_self
    have hlater : ∀ b ∈ as, Reserves c t b := fun b hb => hown b (mem_cons_of_mem a hb)
    have hfree := not_owns_of_idle hv htask
    rw [outputs_cons hv, outputs_cons hv, taskSent_eq_nil hfree, nil_append]
    have htask' : v.tasks t = none := (step_task_eq hv ha hfree).trans htask
    by_cases hreplay : a = .replay c
    · subst hreplay
      obtain ⟨k₀, k', hk₀, hf, rfl⟩ := onConn_eq_some hv
      cases hk.symm.trans hk₀
      have hk' : (s.setConn c k').conns c = some k' := update_self ..
      obtain ⟨hpre, htold, hiff⟩ := ih hk' htask' hrest hlater
      unfold replayStep at hf
      split at hf
      next => cases hf
      next e rest hloop =>
        split at hf <;> cases hf
        next hroom =>
          have hsent : replaySent c s (.replay c) = [e] := by simp [replaySent, hk, hroom, hloop]
          rw [hsent, hloop, singleton_append, cons_prefix_cons, List.cons.injEq]
          have htakes : TakesSend c t owed s (.replay c) := by
            rintro - k₁ hk₁
            cases hk.symm.trans hk₁
            exact hroom
          refine ⟨⟨rfl, hpre⟩, htold, ?_⟩
          rw [and_iff_right rfl, hiff, steps_cons_iff hv, and_iff_right htakes]
        next hfull =>
          have hsent : replaySent c s (.replay c) = [] := by simp [replaySent, hk, hfull]
          have hnone : outputs step (replaySent c) (s.setConn c { k with replay := [] }) as = [] :=
            prefix_nil.mp hpre
          rw [hsent, hnone, hloop]
          refine ⟨List.nil_prefix, htold, iff_of_false (cons_ne_nil e rest).symm ?_⟩
          rw [steps_cons_iff hv]
          rintro ⟨hok, -⟩
          exact hfull (hok rfl k hk)
    · obtain ⟨k', hk', hsame⟩ := step_keepsReplay hv hreplay ha k hk
      obtain ⟨hpre, htold, hiff⟩ := ih hk' htask' hrest hlater
      rw [replaySent_eq_nil hreplay, nil_append, ← hsame, steps_cons_iff hv,
        and_iff_right (takesSend_of_other hreplay hfree)]
      exact ⟨hpre, htold, hiff⟩

theorem replaySent_run_nil (hk : s.conns c = some k) (hloop : k.replay = []) (htask : s.tasks t = none)
    (hrun : run step s as = some u) (hown : ∀ a ∈ as, Reserves c t a) (hret : Returned c t u) (owed : List Envelope) :
    outputs step (replaySent c) s as = [] ∧ outputs step (taskSent t) s as = [] ∧
      Steps step (TakesSend c t owed) s as u := by
  obtain ⟨hpre, htold, hiff⟩ := replay_run_iff owed hk htask hrun hown hret
  rw [hloop] at hpre hiff
  have hnone := prefix_nil.mp hpre
  exact ⟨hnone, htold, hiff.mp hnone⟩

theorem stale_run_iff (owed : List Envelope) {task : Task} (hk : s.conns c = some k) (hloop : k.replay = [])
    (htask : s.tasks t = some task) (hstale : task.env.type = .sessionStale) (hrun : run step s as = some u)
    (hown : ∀ a ∈ as, Reserves c t a) (hret : Returned c t u) :
    outputs step (replaySent c) s as = [] ∧
      ((owed = [] ∨ ∃ x ∈ outputs step (taskSent t) s as, x.type = .sessionStale) ↔
        Steps step (TakesSend c t owed) s as u) := by
  induction as generalizing s k task with
  | nil =>
    cases hrun
    cases hret.1.symm.trans htask
  | cons a as ih =>
    obtain ⟨v, hv, hrest⟩ := Option.bind_eq_some_iff.mp hrun
    have ha := hown a mem_cons_self
    have hlater : ∀ b ∈ as, Reserves c t b := fun b hb => hown b (mem_cons_of_mem a hb)
    have hreplay : a ≠ .replay c := by
      rintro rfl
      obtain ⟨k₀, k', hk₀, hf, -⟩ := onConn_eq_some hv
      cases hk.symm.trans hk₀
      simp [replayStep, hloop] at hf
    obtain ⟨k', hk', hsame⟩ := step_keepsReplay hv hreplay ha k hk
    have hloop' : k'.replay = [] := hsame.trans hloop
    rw [outputs_cons hv, outputs_cons hv, replaySent_eq_nil hreplay, nil_append, steps_cons_iff hv]
    by_cases howns : Owns t a
    · cases a with
      | append r size =>
        cases howns
        have htask' : v.tasks t = some { task with appended := true } := by
          change Resume.append s t size = some v at hv
          unfold Resume.append at hv
          rw [htask] at hv
          obtain ⟨-, hf⟩ := Option.ite_none_left_eq_some.mp hv
          cases hf
          exact update_self ..
        rw [and_iff_right (show TakesSend c t owed s (.append t size) from trivial)]
        exact ih hk' hloop' htask' hstale hrest hlater
      | send r =>
        cases howns
        have htask' : v.tasks t = none := by rw [selectSend_tasks hv, update_self]
        obtain ⟨hnone, -, hsteps⟩ := replaySent_run_nil hk' hloop' htask' hrest hlater hret owed
        have hsent : taskSent t s (.send t) = [task.env] := by simp [taskSent, htask]
        refine ⟨hnone, iff_of_true (.inr ⟨task.env, ?_, hstale⟩) ⟨trivial, hsteps⟩⟩
        rw [hsent]
        exact mem_append_left _ mem_cons_self
      | done r | drop r =>
        cases howns
        have htask' : v.tasks t = none := by rw [selectSend_tasks hv, update_self]
        obtain ⟨hnone, htold, hsteps⟩ := replaySent_run_nil hk' hloop' htask' hrest hlater hret owed
        refine ⟨hnone, ?_⟩
        rw [htold, and_iff_left hsteps]
        simp [taskSent, TakesSend]
      | _ => exact howns.elim
    · have htask' : v.tasks t = some task := (step_task_eq hv ha howns).trans htask
      rw [taskSent_eq_nil howns, nil_append, and_iff_right (takesSend_of_other hreplay howns)]
      exact ih hk' hloop' htask' hstale hrest hlater

theorem clientHello_cases {lastID : ℕ} {rest : List (Option ℕ)} (hk : s.conns c = some k)
    (hinbox : k.inbox = some lastID :: rest) (h : clientHello s c t = some s') :
    (∃ events k', s.buffer.since (some lastID) = some events ∧ s'.conns c = some k' ∧ k'.replay = events ∧
      s'.tasks t = none) ∨
    ∃ k' task, s.buffer.since (some lastID) = none ∧ s'.conns c = some k' ∧ k'.replay = [] ∧
      s'.tasks t = some task ∧ task.env.type = .sessionStale := by
  unfold Resume.clientHello at h
  rw [hk] at h
  dsimp only at h
  rw [hinbox] at h
  split at h
  next heq _ _ => cases heq
  next heq hreplay htask =>
    cases heq
    split at h <;> cases h
    next hsince => exact .inr ⟨_, _, hsince, update_self .., hreplay, update_self .., rfl⟩
    next events hsince => exact .inl ⟨events, _, hsince, update_self .., rfl, htask⟩
  next => cases h

theorem replay_complete_iff {lastID : ℕ} {rest : List (Option ℕ)} {before after : List Entry} {e : Entry}
    (hk : s.conns c = some k) (hinbox : k.inbox = some lastID :: rest) (hitems : s.buffer.items = before ++ e :: after)
    (hid : e.env.id = lastID) (hfirst : ∀ x ∈ before, x.env.id ≠ lastID) (hhello : step s (.clientHello c t) = some s')
    (hrun : run step s' as = some u) (hown : ∀ a ∈ as, Reserves c t a) (hret : Returned c t u) :
    (outputs step (replaySent c) s' as = after.map Entry.env ∨
        ∃ x ∈ outputs step (taskSent t) s' as, x.type = .sessionStale) ↔
      Steps step (TakesSend c t (after.map Entry.env)) s' as u := by
  rcases clientHello_cases hk hinbox hhello with ⟨events, k', hsince, hk', hloop, htask⟩ |
    ⟨k', task, hsince, hk', hloop, htask, hstale⟩
  · obtain ⟨-, htold, hiff⟩ := replay_run_iff (after.map Entry.env) hk' htask hrun hown hret
    have hevents : events = after.map Entry.env := by
      have hrange := (RingBuffer.since_isSome_iff.mp (Option.isSome_of_eq_some hsince)).2
      rw [RingBuffer.since_eq_tailAfter hrange, hitems, RingBuffer.tailAfter_append hfirst, RingBuffer.tailAfter,
        if_pos hid] at hsince
      exact (Option.some.inj hsince).symm
    rw [hloop, hevents] at hiff
    rw [htold, ← hiff]
    simp
  · obtain ⟨hnone, hiff⟩ := stale_run_iff (after.map Entry.env) hk' hloop htask hstale hrun hown hret
    rw [hnone, ← hiff, eq_comm]

def comeback (n : ℕ) : List Action :=
  let away : List Action := [.drain 0, .deliver 0, .cut 0]
  let pong (i : ℕ) : List Action := [.emit 0 (i + 1) .pong, .append (i + 1) 90, .send (i + 1)]
  let back : List Action := [.resume 1 (some 0)]
  greeting 0 0 0 ++ away ++ (List.range n).flatMap pong ++ greeting 1 0 (n + 1) ++ back

theorem replay_complete_comeback :
    ∃ s s' u, run step (init 256 1048576) (comeback 1) = some s ∧ step s (.clientHello 1 3) = some s' ∧
      run step s' [.replay 1, .drain 1, .replay 1] = some u ∧
      (outputs step (replaySent 1) s' [.replay 1, .drain 1, .replay 1] = [⟨1, .pong⟩, ⟨3, .hello⟩] ∨
        ∃ x ∈ outputs step (taskSent 3) s' [.replay 1, .drain 1, .replay 1], x.type = .sessionStale) := by
  refine ⟨_, _, _, rfl, rfl, rfl, ?_⟩
  have hitems : ((run step (init 256 1048576) (comeback 1)).get rfl).buffer.items =
      [] ++ ⟨⟨0, .hello⟩, 180⟩ :: [⟨⟨1, .pong⟩, 90⟩, ⟨⟨3, .hello⟩, 180⟩] := rfl
  refine (replay_complete_iff (s := (run step (init 256 1048576) (comeback 1)).get rfl) (c := 1) rfl rfl hitems rfl
    nofun rfl rfl (by decide) ⟨rfl, ?_⟩).mpr ?_
  · rintro k ⟨⟩
    rfl
  · refine .cons ?_ rfl (.cons trivial rfl (.cons ?_ rfl (.nil _)))
    · rintro - k ⟨⟩
      decide
    · rintro - k ⟨⟩
      decide

theorem replay_cut_short : ∃ s s' u, run step (init 256 1048576) (comeback 64) = some s ∧
    s.buffer.items.map (·.env.id) = List.range 65 ++ [66] ∧ step s (.clientHello 1 100) = some s' ∧
    run step s' (List.replicate 64 (.replay 1)) = some u ∧ Returned 1 100 u ∧
    (outputs step (replaySent 1) s' (List.replicate 64 (.replay 1))).map (·.id) = List.range' 1 63 ∧
    outputs step (taskSent 100) s' (List.replicate 64 (.replay 1)) = [] := by
  have hall : (run step (init 256 1048576) (comeback 64)).any (fun s =>
      s.buffer.items.map (·.env.id) = List.range 65 ++ [66] ∧ (step s (.clientHello 1 100)).any fun s' =>
        (run step s' (List.replicate 64 (.replay 1))).any fun u =>
          ((u.tasks 100).isNone ∧ (u.conns 1).all fun k => k.replay = []) ∧
          (outputs step (replaySent 1) s' (List.replicate 64 (.replay 1))).map (·.id) = List.range' 1 63 ∧
          outputs step (taskSent 100) s' (List.replicate 64 (.replay 1)) = []) = true := by decide +kernel
  obtain ⟨s, hs, hitems, hall⟩ := exists_run_of_any hall
  obtain ⟨s', hs', hall⟩ := (Option.any_eq_true _ _).mp hall
  obtain ⟨u, hu, ⟨htask, hconn⟩, hreplayed, htold⟩ := exists_run_of_any hall
  refine ⟨s, s', u, hs, hitems, hs', hu, ⟨Option.isNone_iff_eq_none.mp htask, fun k hk => ?_⟩, hreplayed, htold⟩
  rw [hk] at hconn
  exact of_decide_eq_true hconn

end NomadDev.Resume
