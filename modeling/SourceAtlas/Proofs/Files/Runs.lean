import SourceAtlas.Proofs.Files.Resolution

/-!
# Runs of actions

How an action runs: one equation for each way in which actions are built.  A run on a file system
ends with a result or a failure, and with the file system as it is then; statements about a run
speak of both.

`Action.on_bind` is the rule for a sequence.  Where the outcome of the first part is known,
`on_bind_ok` and `on_bind_error` apply it.
-/

namespace SourceAtlas.Action

variable {α β : Type} {fs fs' : FileSystem}

@[simp] lemma on_pure (value : α) : (pure value : Action α).on fs = (.ok value, fs) := rfl

@[simp] lemma on_throw (failure : Failure) :
    (throw failure : Action α).on fs = (.error failure, fs) := rfl

@[simp] lemma on_get : (get : Action FileSystem).on fs = (.ok fs, fs) := rfl

@[simp] lemma on_set : (set fs' : Action Unit).on fs = (.ok (), fs') := rfl

@[simp] lemma on_modify (step : FileSystem → FileSystem) :
    (modify step : Action Unit).on fs = (.ok (), step fs) := rfl

lemma on_bind_ok {first : Action α} {next : α → Action β} {value : α}
    (h : first.on fs = (.ok value, fs')) : (first >>= next).on fs = (next value).on fs' := by
  have h' : first fs = (.ok value, fs') := h
  show (match first fs with | (result, fs') => ExceptT.bindCont next result fs') = _
  rw [h']
  rfl

lemma on_bind_error {first : Action α} {next : α → Action β} {failure : Failure}
    (h : first.on fs = (.error failure, fs')) : (first >>= next).on fs = (.error failure, fs') := by
  have h' : first fs = (.error failure, fs') := h
  show (match first fs with | (result, fs') => ExceptT.bindCont next result fs') = _
  rw [h']
  rfl

/-- A run goes on where its first part ended, unless that failed. -/
lemma on_bind (first : Action α) (next : α → Action β) (fs : FileSystem) :
    (first >>= next).on fs =
      match first.on fs with
      | (.ok value, fs') => (next value).on fs'
      | (.error failure, fs') => (.error failure, fs') := by
  rcases h : first.on fs with ⟨_ | _, fs'⟩
  · exact on_bind_error h
  · exact on_bind_ok h

/-- A sequence that yields a result has yielded one in each part. -/
lemma ok_of_on_bind {first : Action α} {next : α → Action β} {result : β}
    (h : (first >>= next).on fs = (.ok result, fs')) :
    ∃ value fs₁, first.on fs = (.ok value, fs₁) ∧ (next value).on fs₁ = (.ok result, fs') := by
  rw [on_bind] at h
  rcases hfirst : first.on fs with ⟨failure | value, fs₁⟩
  · rw [hfirst] at h
    cases h
  · rw [hfirst] at h
    exact ⟨value, fs₁, rfl, h⟩

/-- A handler takes over where a failed run ended. -/
lemma on_tryCatch (action : Action α) (handler : Failure → Action α) (fs : FileSystem) :
    (tryCatch action handler).on fs =
      match action.on fs with
      | (.ok value, fs') => (.ok value, fs')
      | (.error failure, fs') => (handler failure).on fs' := by
  show ExceptT.tryCatch action handler fs = _
  rcases h : action.on fs with ⟨_ | _, fs'⟩
  · have h' : action fs = _ := h
    simp only [ExceptT.tryCatch, ExceptT.mk, bind, StateT.bind, h']
    rfl
  · have h' : action fs = _ := h
    simp only [ExceptT.tryCatch, ExceptT.mk, bind, StateT.bind, h']
    rfl

/-- What is observed does not fail. -/
lemma on_observing (action : Action α) (fs : FileSystem) :
    (observing action).on fs = (.ok (action.on fs).1, (action.on fs).2) := by
  rw [observing, on_tryCatch, on_bind]
  rcases action.on fs with ⟨failure | value, fs'⟩ <;> rfl

@[simp] lemma on_discard (action : Action α) (fs : FileSystem) :
    (discard action).on fs = ((action.on fs).1.map fun _ => (), (action.on fs).2) := by
  show ExceptT.map (fun _ => ()) action fs = _
  rcases h : action.on fs with ⟨_ | _, fs'⟩
  · have h' : action fs = _ := h
    simp only [ExceptT.map, ExceptT.mk, bind, StateT.bind, h']
    rfl
  · have h' : action fs = _ := h
    simp only [ExceptT.map, ExceptT.mk, bind, StateT.bind, h']
    rfl

/-! ## Lifted operations -/

lemma on_query (read : FileSystem → Except FileError α) (fs : FileSystem) :
    (query read).on fs =
      match read fs with
      | .ok value => (.ok value, fs)
      | .error e => (.error (.file e), fs) := by
  rw [query, on_bind, on_get]
  cases h : read fs <;> simp [h]

lemma on_change (step : FileSystem → Except FileError FileSystem) (fs : FileSystem) :
    (change step).on fs =
      match step fs with
      | .ok fs' => (.ok (), fs')
      | .error e => (.error (.file e), fs) := by
  rw [change, on_bind, on_get]
  cases h : step fs <;> simp [h]

lemma on_changeAt (step : FileSystem → Except FileError (Location × FileSystem)) (fs : FileSystem) :
    (changeAt step).on fs =
      match step fs with
      | .ok (location, fs') => (.ok location, fs')
      | .error e => (.error (.file e), fs) := by
  rw [changeAt, on_bind, on_get]
  cases h : step fs with
  | error e => simp [h]
  | ok changed =>
    obtain ⟨location, fs'⟩ := changed
    simp only [h, on_bind, on_set, on_pure]

/-- Resolving a path changes nothing. -/
lemma on_resolve (path : String) (fs : FileSystem) :
    (resolve path).on fs =
      match fs.resolve path with
      | .ok location => (.ok location, fs)
      | .error .nullByte => (.error (.file .nullByte), fs)
      | .error (.linkLoop path) => (.error (.linkLoop path), fs) := by
  rw [resolve, on_bind, on_get]
  cases h : fs.resolve path with
  | ok location => simp [h]
  | error e => cases e <;> simp [h]

/-! ## Reading only -/

/-- A run that leaves the file system as it is. -/
def ReadsOnly (action : Action α) : Prop :=
  ∀ fs, (action.on fs).2 = fs

lemma readsOnly_pure (value : α) : ReadsOnly (pure value) := fun _ => rfl

lemma readsOnly_throw (failure : Failure) : ReadsOnly (throw failure : Action α) := fun _ => rfl

lemma readsOnly_get : ReadsOnly get := fun _ => rfl

lemma ReadsOnly.bind {first : Action α} {next : α → Action β} (h : ReadsOnly first)
    (hn : ∀ value, ReadsOnly (next value)) : ReadsOnly (first >>= next) := by
  intro fs
  have hfirst := h fs
  rw [on_bind]
  generalize first.on fs = outcome at hfirst
  obtain ⟨failure | value, fs'⟩ := outcome
  · exact hfirst
  · obtain rfl : fs' = fs := hfirst
    exact hn value fs'

lemma readsOnly_resolve (path : String) : ReadsOnly (resolve path) := by
  intro fs
  rw [on_resolve]
  split <;> rfl

end SourceAtlas.Action
