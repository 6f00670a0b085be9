import AlineaCopilot.StatefulPrograms
open AlineaCopilot.StatefulPrograms

namespace AlineaCopilot.InterruptedPrograms
variable {σ ε α β : Type}

-- A state behind a line on which so many more calls are answered.
structure Line (σ : Type) where
  state : σ
  left : Nat

-- One call over the line. What the calls before it wrote stays written.
def call (failure : ε) (program : Program σ ε α) : Program (Line σ) ε α := fun line =>
  if line.left = 0 then (.error failure,line)
  else ((perform program line.state).1,⟨(perform program line.state).2,line.left - 1⟩)

theorem perform_call_dead (failure : ε) (program : Program σ ε α) (s : σ) :
    perform (call failure program) ⟨s,0⟩ = (.error failure,⟨s,0⟩) := rfl

theorem perform_call (failure : ε) (program : Program σ ε α) (s : σ) (n : Nat) :
    perform (call failure program) ⟨s,1 + n⟩ = ((perform program s).1,⟨(perform program s).2,n⟩) := by
  show (if 1 + n = 0 then _ else _ : Except ε α × Line σ) = _
  rw [if_neg (by omega),Nat.add_sub_cancel_left]

-- A program over the line does what the plain one does, in so many calls; where
-- the line gives fewer it stops with the failure, and `kept` holds of what is
-- left behind.
structure Tracks (failure : ε) (kept : σ → Prop) (limited : Program (Line σ) ε α) (plain : Program σ ε α) (s : σ) (cost : Nat)
    (post : α → σ → Prop) : Prop where
  enough : ∃ value t, perform plain s = (.ok value,t) ∧ post value t ∧ ∀ n, perform limited ⟨s,cost + n⟩ = (.ok value,⟨t,n⟩)
  short : ∀ n, n < cost → ∃ t, perform limited ⟨s,n⟩ = (.error failure,t) ∧ kept t.state

section Rules
variable {failure : ε} {kept : σ → Prop} {s : σ} {cost : Nat}

theorem Tracks.pure {post : α → σ → Prop} (value : α) (holds : post value s) :
    Tracks failure kept (pure value) (pure value) s 0 post :=
  ⟨⟨value,s,rfl,holds,fun n => by rw [perform_pure,Nat.zero_add]⟩,fun _ below => absurd below (Nat.not_lt_zero _)⟩

theorem Tracks.call {program : Program σ ε α} {post : α → σ → Prop} (returns : Returns program s post) (keeps : kept s) :
    Tracks failure kept (call failure program) program s 1 post := by
  obtain ⟨value,t,outcome,holds⟩ := returns
  refine ⟨⟨value,t,outcome,holds,fun n => ?_⟩,fun n below => ?_⟩
  · rw [perform_call,outcome]
  · obtain rfl := Nat.lt_one_iff.mp below
    exact ⟨_,perform_call_dead failure program s,keeps⟩

theorem Tracks.mono {limited : Program (Line σ) ε α} {plain : Program σ ε α} {post weaker : α → σ → Prop}
    (tracks : Tracks failure kept limited plain s cost post) (implies : ∀ value t, post value t → weaker value t) :
    Tracks failure kept limited plain s cost weaker := by
  obtain ⟨value,t,outcome,holds,runs⟩ := tracks.enough
  exact ⟨⟨value,t,outcome,implies value t holds,runs⟩,tracks.short⟩

theorem Tracks.bind {limited : Program (Line σ) ε α} {plain : Program σ ε α} {next : α → Program (Line σ) ε β} {after : α → Program σ ε β}
    {middle : α → σ → Prop} {post : β → σ → Prop} {later : Nat} (first : Tracks failure kept limited plain s cost middle)
    (second : ∀ value t, middle value t → Tracks failure kept (next value) (after value) t later post) :
    Tracks failure kept (limited >>= next) (plain >>= after) s (cost + later) post := by
  obtain ⟨value,t,outcome,holds,runs⟩ := first.enough
  have onward := second value t holds
  obtain ⟨result,u,ended,shown,goes⟩ := onward.enough
  refine ⟨⟨result,u,by rw [perform_bind,outcome]; exact ended,shown,fun n => ?_⟩,fun n below => ?_⟩
  · rw [perform_bind,Nat.add_assoc,runs]
    exact goes n
  · by_cases early : n < cost
    · obtain ⟨line,stopped,keeps⟩ := first.short n early
      exact ⟨line,by rw [perform_bind,stopped],keeps⟩
    · obtain ⟨rest,rfl⟩ := Nat.exists_eq_add_of_le (Nat.le_of_not_lt early)
      obtain ⟨line,stopped,keeps⟩ := onward.short rest (by omega)
      exact ⟨line,by rw [perform_bind,runs]; exact stopped,keeps⟩

theorem Tracks.ends {limited : Program (Line σ) ε α} {plain : Program σ ε α} {middle : α → σ → Prop} {post : β → σ → Prop} {value : α → β}
    (tracks : Tracks failure kept limited plain s cost middle) (implies : ∀ a t, middle a t → post (value a) t) :
    Tracks failure kept (limited >>= fun a => Pure.pure (value a)) (plain >>= fun a => Pure.pure (value a)) s cost post :=
  tracks.bind fun a t holds => .pure (value a) (implies a t holds)

-- A query in between that the plain program does not make.
theorem Tracks.look {query : Program σ ε α} {next : α → Program (Line σ) ε β} {plain : Program σ ε β} {post : β → σ → Prop}
    {value : α} (answers : perform query s = (.ok value,s)) (keeps : kept s) (rest : Tracks failure kept (next value) plain s cost post) :
    Tracks failure kept (InterruptedPrograms.call failure query >>= next) plain s (1 + cost) post := by
  obtain ⟨result,u,ended,shown,goes⟩ := rest.enough
  refine ⟨⟨result,u,ended,shown,fun n => ?_⟩,fun n below => ?_⟩
  · rw [perform_bind,Nat.add_assoc,perform_call,answers]
    exact goes n
  · cases n with
    | zero => exact ⟨_,by rw [perform_bind,perform_call_dead],keeps⟩
    | succ n =>
      obtain ⟨line,stopped,keeps⟩ := rest.short n (by omega)
      refine ⟨line,?_,keeps⟩
      rw [perform_bind,Nat.add_comm n 1,perform_call,answers]
      exact stopped

theorem Tracks.forM {limited : α → Program (Line σ) ε PUnit} {plain : α → Program σ ε PUnit} (price : α → Nat) (invariant : List α → σ → Prop)
    (items : List α) (start : invariant [] s)
    (each : ∀ earlier item rest t, items = earlier ++ item :: rest → invariant earlier t →
      Tracks failure kept (limited item) (plain item) t (price item) fun _ next => invariant (earlier ++ [item]) next) :
    Tracks failure kept (items.forM limited) (items.forM plain) s (items.map price).sum fun _ t => invariant items t := by
  suffices ∀ rest earlier t, items = earlier ++ rest → invariant earlier t →
      Tracks failure kept (rest.forM limited) (rest.forM plain) t (rest.map price).sum fun _ next => invariant items next from
    this items [] s rfl start
  intro rest
  induction rest with
  | nil =>
    intro earlier t whole holds
    rw [List.append_nil] at whole
    exact .pure _ (whole ▸ holds)
  | cons item rest ih =>
    intro earlier t whole holds
    rw [List.map_cons,List.sum_cons]
    change Tracks failure kept (limited item >>= fun _ => rest.forM limited) (plain item >>= fun _ => rest.forM plain) t _ _
    refine (each earlier item rest t whole holds).bind fun _ next shown => ?_
    exact ih (earlier ++ [item]) next (by rw [whole,List.append_assoc]; rfl) shown

theorem Tracks.mapM {limited : α → Program (Line σ) ε β} {plain : α → Program σ ε β} (price : α → Nat) (invariant : List α → List β → σ → Prop)
    (items : List α) (start : invariant [] [] s)
    (each : ∀ earlier item rest results t, items = earlier ++ item :: rest → invariant earlier results t →
      Tracks failure kept (limited item) (plain item) t (price item) fun result next => invariant (earlier ++ [item]) (results ++ [result]) next) :
    Tracks failure kept (items.mapM limited) (items.mapM plain) s (items.map price).sum fun results t => invariant items results t := by
  suffices ∀ rest earlier results t, items = earlier ++ rest → invariant earlier results t →
      Tracks failure kept (rest.mapM limited) (rest.mapM plain) t (rest.map price).sum fun more next => invariant items (results ++ more) next from
    this items [] [] s rfl start
  intro rest
  induction rest with
  | nil =>
    intro earlier results t whole holds
    rw [List.append_nil] at whole
    refine .pure _ ?_
    show invariant items (results ++ []) t
    rw [List.append_nil]
    exact whole ▸ holds
  | cons item rest ih =>
    intro earlier results t whole holds
    rw [List.map_cons,List.sum_cons,List.mapM_cons,List.mapM_cons]
    refine (each earlier item rest results t whole holds).bind fun result next shown => ?_
    have onward := ih (earlier ++ [item]) (results ++ [result]) next (by rw [whole,List.append_assoc]; rfl) shown
    refine onward.ends fun more u ended => ?_
    rw [List.append_assoc] at ended
    exact ended

end Rules

end AlineaCopilot.InterruptedPrograms
