set_option autoImplicit false

namespace CommandScript

variable {σ ε ε' α β : Type}

-- Work that settles ends as the postcondition says, or stops with the state that it found.
structure Settles (work : ExceptT ε (StateM σ) α) (state : σ) (post : α → σ → Prop) : Prop where
  finished : ∀ {value : α} {after : σ}, work.run state = (.ok value, after) → post value after
  stopped : ∀ {error : ε} {after : σ}, work.run state = (.error error, after) → after = state

theorem run_bind (work : ExceptT ε (StateM σ) α) (rest : α → ExceptT ε (StateM σ) β) (state : σ) :
    (work >>= rest).run state = match work.run state with
      | (.ok value, after) => (rest value).run after
      | (.error error, after) => (.error error, after) := by
  change (match work.run state with | (result, after) => ExceptT.bindCont rest result after) = _
  rcases work.run state with ⟨result, after⟩
  cases result <;> rfl

namespace Settles

theorem of_ok {work : ExceptT ε (StateM σ) α} {state after : σ} {post : α → σ → Prop} {value : α}
    (run : work.run state = (.ok value, after)) (holds : post value after) : Settles work state post := by
  refine ⟨fun {other final} again => ?_, fun {error final} never => ?_⟩
  · obtain ⟨sameValue, rfl⟩ := Prod.mk.inj (run.symm.trans again)
    exact Except.ok.inj sameValue ▸ holds
  · cases run.symm.trans never

theorem of_error {work : ExceptT ε (StateM σ) α} {state : σ} {post : α → σ → Prop} {error : ε}
    (run : work.run state = (.error error, state)) : Settles work state post := by
  refine ⟨fun {value final} never => ?_, fun {other final} again => ?_⟩
  · cases run.symm.trans never
  · exact (Prod.mk.inj (run.symm.trans again)).2.symm

theorem weaken {work : ExceptT ε (StateM σ) α} {state : σ} {post weaker : α → σ → Prop}
    (settles : Settles work state post) (implies : ∀ value after, post value after → weaker value after) :
    Settles work state weaker :=
  ⟨fun run => implies _ _ (settles.finished run), settles.stopped⟩

theorem with_run {work : ExceptT ε (StateM σ) α} {state : σ} {post : α → σ → Prop} (settles : Settles work state post) :
    Settles work state fun value after => post value after ∧ work.run state = (.ok value, after) :=
  ⟨fun run => ⟨settles.finished run, run⟩, settles.stopped⟩

theorem of_pure {value : α} {state : σ} {post : α → σ → Prop} (holds : post value state) :
    Settles (pure value : ExceptT ε (StateM σ) α) state post := of_ok rfl holds

theorem of_throw (error : ε) (state : σ) (post : α → σ → Prop) :
    Settles (throw error : ExceptT ε (StateM σ) α) state post := of_error rfl

theorem of_set {state next : σ} {post : PUnit → σ → Prop} (holds : post ⟨⟩ next) :
    Settles (set next : ExceptT ε (StateM σ) PUnit) state post := of_ok rfl holds

theorem of_check {check : Except ε α} {state : σ} {post : α → σ → Prop}
    (passed : ∀ value, check = .ok value → post value state) :
    Settles (liftM check : ExceptT ε (StateM σ) α) state post := by
  cases check with
  | ok value => exact of_ok rfl (passed value rfl)
  | error error => exact of_error rfl

theorem get_bind {rest : σ → ExceptT ε (StateM σ) β} {state : σ} {post : β → σ → Prop}
    (settles : Settles (rest state) state post) : Settles (get >>= rest) state post :=
  ⟨settles.finished, settles.stopped⟩

-- Reading may stop, but it never writes, so the rest starts in the state that was found.
theorem read_bind {work : ExceptT ε (StateM σ) α} {rest : α → ExceptT ε (StateM σ) β} {state : σ}
    {post : β → σ → Prop}
    (reads : Settles work state fun value after => after = state ∧ Settles (rest value) state post) :
    Settles (work >>= rest) state post := by
  match run : work.run state with
  | (.ok value, after) =>
    obtain ⟨rfl, settles⟩ := reads.finished run
    have joined : (work >>= rest).run after = (rest value).run after := by rw [run_bind, run]
    exact ⟨fun whole => settles.finished (joined.symm.trans whole), fun whole => settles.stopped (joined.symm.trans whole)⟩
  | (.error error, after) =>
    obtain rfl := reads.stopped run
    exact of_error (by rw [run_bind, run])

theorem check_bind {check : Except ε α} {rest : α → ExceptT ε (StateM σ) β} {state : σ} {post : β → σ → Prop}
    (settles : ∀ value, check = .ok value → Settles (rest value) state post) :
    Settles (liftM check >>= rest) state post :=
  read_bind (of_check fun value passed => ⟨rfl, settles value passed⟩)

theorem throw_bind (error : ε) (rest : α → ExceptT ε (StateM σ) β) (state : σ) (post : β → σ → Prop) :
    Settles (throw error >>= rest) state post := of_error rfl

-- Once the work is done, nothing that follows it may stop any more.
theorem bind_total {work : ExceptT ε (StateM σ) α} {rest : α → ExceptT ε (StateM σ) β} {state : σ}
    {post : β → σ → Prop}
    (settles : Settles work state fun value after =>
      ∃ result final, (rest value).run after = (.ok result, final) ∧ post result final) :
    Settles (work >>= rest) state post := by
  match run : work.run state with
  | (.ok value, after) =>
    obtain ⟨result, final, ends, holds⟩ := settles.finished run
    exact of_ok (by rw [run_bind, run]; exact ends) holds
  | (.error error, after) =>
    obtain rfl := settles.stopped run
    exact of_error (by rw [run_bind, run])

theorem bind_pure {work : ExceptT ε (StateM σ) α} {result : α → β} {state : σ} {post : β → σ → Prop}
    (settles : Settles work state fun value after => post (result value) after) :
    Settles (work >>= fun value => pure (result value)) state post :=
  bind_total (settles.weaken fun value after holds => ⟨result value, after, rfl, holds⟩)

theorem adapt {work : ExceptT ε (StateM σ) α} {state : σ} {post : α → σ → Prop} (settles : Settles work state post)
    (rename : ε → ε') : Settles (ExceptT.adapt rename work) state post := by
  have renamed : (ExceptT.adapt rename work).run state =
      ((work.run state).1.mapError rename, (work.run state).2) := rfl
  match run : work.run state with
  | (.ok value, after) =>
    rw [run] at renamed
    exact of_ok renamed (settles.finished run)
  | (.error error, after) =>
    obtain rfl := settles.stopped run
    rw [run] at renamed
    exact of_error renamed

end Settles

theorem ok_of_bind {check : Except ε α} {rest : α → Except ε β} {result : β} (ends : (check >>= rest) = .ok result) :
    ∃ value, check = .ok value ∧ rest value = .ok result := by
  cases check with
  | ok value => exact ⟨value, rfl, ends⟩
  | error error => cases ends

-- Whatever a check lets through has a property.
def Yields {ε α : Type} (check : Except ε α) (holds : α → Prop) : Prop :=
  ∀ value, check = .ok value → holds value

namespace Yields

variable {ε α β : Type} {holds : β → Prop}

theorem of_ok {value : β} (own : holds value) : Yields (.ok value : Except ε β) holds :=
  fun _ same => Except.ok.inj same ▸ own

theorem of_error (error : ε) : Yields (.error error : Except ε β) holds :=
  fun _ never => nomatch never

theorem bind {check : Except ε α} {rest : α → Except ε β} (each : ∀ value, check = .ok value → Yields (rest value) holds) :
    Yields (check >>= rest) holds := by
  cases check with
  | ok value => exact each value rfl
  | error error => exact of_error error

end Yields

end CommandScript
