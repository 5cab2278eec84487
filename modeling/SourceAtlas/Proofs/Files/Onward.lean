import SourceAtlas.Proofs.Files.Runs

/-!
# Walking on

How walks along related lists of names go together.

* A walk along names and then some more goes on where the walk along the names arrives
  (`walk_append`), and if the whole walk arrives, so does the first part (`walk_front`).
* If a walk arrives, it arrives as well when a link at the very end is not followed
  (`walk_unfollowed`).
* A walk that arrives does not miss a `.` that is taken out of its names (`walk_undotted`), and one
  that arrives at a directory does so with a further `.` as well (`walk_dotted`).

They relate the different texts by which a program asks for one place: a directory, an entry in it,
and either of them without the segments that mean nothing.
-/

namespace SourceAtlas.FileSystem

variable {fs : FileSystem} {followLast : Bool} {budget : Nat} {here there start : Location}
  {names names' more onward : List String}

/-! ## More names -/

/-- Links in front of further names are followed, whether or not one at the end is. -/
lemma advance_append (followLast : Bool) (here : Location) (names : List String) (hm : more ≠ []) :
    fs.advance followLast here (names ++ more) =
      match fs.advance true here names with
      | .arrived (.entry there) => fs.advance followLast there more
      | .arrived (.vacant _ _) => .stopped .notFound
      | .detour start onward => .detour start (onward ++ more)
      | .stopped code => .stopped code := by
  induction names generalizing here with
  | nil => rfl
  | cons name names ih =>
    have hne : names ++ more ≠ [] := by simp [hm]
    rw [List.cons_append, advance, advance]
    split
    · rfl
    · split
      · exact ih here
      split
      · exact ih here.dropLast
      split
      · rfl
      split
      · by_cases hnil : names = [] <;> simp [hnil]
      · simp [hne]
      · exact ih _
    · rfl

lemma walk_congr {here' : Location}
    (h : fs.advance followLast here names = fs.advance followLast here' names') :
    fs.walk followLast budget here names = fs.walk followLast budget here' names' := by
  cases budget <;> rw [walk, walk, h]

/-- A walk goes on where its first part arrives, with what is left of the budget. -/
lemma walk_append (followLast : Bool) (h : fs.walk true budget here names = .ok (.entry there))
    (hm : more ≠ []) :
    ∃ left, fs.walk followLast budget here (names ++ more) =
      fs.walk followLast left there more := by
  refine walk_induction (motive := fun budget here names => ∃ left,
    fs.walk followLast budget here (names ++ more) = fs.walk followLast left there more) ?_ ?_ h
  · intro budget here names ha
    refine ⟨budget, walk_congr ?_⟩
    rw [advance_append followLast here names hm, ha]
  · intro budget here names start onward ha ⟨left, ih⟩
    have hdetour : fs.advance followLast here (names ++ more) = .detour start (onward ++ more) := by
      rw [advance_append followLast here names hm, ha]
    exact ⟨left, by rw [walk_of_detour hdetour, ih]⟩

/-- A `.` behind a walk to a directory leads nowhere else. -/
lemma walk_dot (followLast : Bool) (h : fs.walk true budget here names = .ok (.entry there))
    (hd : fs.isDirectory there) :
    fs.walk followLast budget here (names ++ ["."]) = .ok (.entry there) := by
  obtain ⟨left, hw⟩ := walk_append followLast h (List.cons_ne_nil "." [])
  rw [hw, walk_of_arrived (by rw [advance_dot hd, advance])]

/-- If a walk arrives, the walk along the first of its names arrives at an entry. -/
lemma walk_front {arrival : Arrival} (hm : more ≠ [])
    (h : fs.walk followLast budget here (names ++ more) = .ok arrival) :
    ∃ middle, fs.walk true budget here names = .ok (.entry middle) := by
  refine walk_induction (motive := fun budget here whole => ∀ names, whole = names ++ more →
    ∃ middle, fs.walk true budget here names = .ok (.entry middle)) ?_ ?_ h names rfl
  · rintro budget here - ha names rfl
    rw [advance_append followLast here names hm] at ha
    split at ha
    · exact ⟨_, walk_of_arrived (by assumption)⟩
    · cases ha
    · cases ha
    · cases ha
  · rintro budget here - start onward ha ih names rfl
    rw [advance_append followLast here names hm] at ha
    split at ha
    · exact ⟨_, walk_of_arrived (by assumption)⟩
    · cases ha
    · rename_i hfirst
      obtain ⟨rfl, rfl⟩ := Leg.detour.inj ha
      obtain ⟨middle, hw⟩ := ih _ rfl
      exact ⟨middle, by rw [walk_of_detour hfirst, hw]⟩
    · cases ha

/-- A walk with names to go that is not stopped starts in a directory. -/
lemma isDirectory_of_walk {arrival : Arrival} (hm : more ≠ [])
    (h : fs.walk followLast budget here more = .ok arrival) : fs.isDirectory here := by
  obtain ⟨name, rest, rfl⟩ := List.exists_cons_of_ne_nil hm
  by_contra hd
  have hstop : ∃ code, fs.advance followLast here (name :: rest) = .stopped code := by
    rw [advance]
    split
    · exact ⟨_, rfl⟩
    · next hdir => exact absurd hdir hd
    · exact ⟨_, rfl⟩
  obtain ⟨code, hstop⟩ := hstop
  rw [walk, hstop] at h
  cases h

/-- Where names in front of others lead is a directory. -/
lemma walk_front_isDirectory {arrival : Arrival} (hm : more ≠ [])
    (h : fs.walk followLast budget here (names ++ more) = .ok arrival) :
    ∃ middle, fs.walk true budget here names = .ok (.entry middle) ∧ fs.isDirectory middle := by
  obtain ⟨middle, hw⟩ := walk_front hm h
  obtain ⟨left, hrest⟩ := walk_append followLast hw hm
  rw [hrest] at h
  exact ⟨middle, hw, isDirectory_of_walk hm h⟩

/-! ## A link at the end -/

lemma advance_unfollowed (fs : FileSystem) (here : Location) (names : List String) :
    fs.advance false here names = fs.advance true here names ∨
      ∃ place, fs.advance false here names = .arrived (.entry place) := by
  induction names generalizing here with
  | nil => exact .inl rfl
  | cons name names ih =>
    rw [advance, advance]
    split
    · exact .inl rfl
    · split
      · exact ih here
      split
      · exact ih here.dropLast
      split
      · exact .inl rfl
      split
      · exact .inl rfl
      · by_cases hnil : names = []
        · exact .inr ⟨_, if_pos ⟨hnil, rfl⟩⟩
        · exact .inl (by simp [hnil])
      · exact ih _
    · exact .inl rfl

/-- What a walk arrives at is also found, perhaps as a link to it, when a link at the end is not
followed. -/
lemma walk_unfollowed (h : fs.walk true budget here names = .ok (.entry there)) :
    ∃ place, fs.walk false budget here names = .ok (.entry place) := by
  refine walk_induction (motive := fun budget here names =>
    ∃ place, fs.walk false budget here names = .ok (.entry place)) ?_ ?_ h
  · intro budget here names ha
    rcases advance_unfollowed fs here names with he | ⟨place, he⟩
    · exact ⟨there, walk_of_arrived (he.trans ha)⟩
    · exact ⟨place, walk_of_arrived he⟩
  · intro budget here names start onward ha ⟨place, ih⟩
    rcases advance_unfollowed fs here names with he | ⟨place', he⟩
    · exact ⟨place, by rw [walk_of_detour (he.trans ha), ih]⟩
    · exact ⟨place', walk_of_arrived he⟩

/-- A directory at the end is no link that could be followed. -/
lemma advance_followed (hd : fs.isDirectory there)
    (h : fs.advance false here names = .arrived (.entry there)) :
    fs.advance true here names = .arrived (.entry there) := by
  induction names generalizing here with
  | nil => exact h
  | cons name names ih =>
    rw [advance] at h ⊢
    split at h
    · cases h
    · split at h
      · rw [if_pos (by assumption)]
        exact ih h
      rw [if_neg (by assumption)]
      split at h
      · rw [if_pos (by assumption)]
        exact ih h
      rw [if_neg (by assumption)]
      split at h
      · cases h
      rw [if_neg (by assumption)]
      split at h
      · split at h <;> cases h
      · next target hl =>
        split at h
        · -- The walk would end at the link, which is no directory.
          obtain rfl := Arrival.entry.inj (Leg.arrived.inj h)
          rw [isDirectory, hl] at hd
          cases hd
        · cases h
      · exact ih h
    · cases h

/-- Where a walk arrives at a directory, it does not matter whether a link at the end
is followed. -/
lemma walk_followed (hd : fs.isDirectory there)
    (h : fs.walk false budget here names = .ok (.entry there)) :
    fs.walk true budget here names = .ok (.entry there) := by
  refine walk_induction (motive := fun budget here names =>
    fs.walk true budget here names = .ok (.entry there)) ?_ ?_ h
  · intro budget here names ha
    exact walk_of_arrived (advance_followed hd ha)
  · intro budget here names start onward ha ih
    rcases advance_unfollowed fs here names with he | ⟨place, he⟩
    · rw [walk_of_detour (he.symm.trans ha), ih]
    · rw [he] at ha
      cases ha

/-- A last name is not a detour if a link there is not followed. -/
lemma advance_last (fs : FileSystem) (here : Location) (last : String) (start : Location)
    (onward : List String) : fs.advance false here [last] ≠ .detour start onward := by
  intro h
  rw [advance] at h
  split at h
  · cases h
  · simp only [advance] at h
    split at h
    · cases h
    split at h
    · cases h
    split at h
    · cases h
    split at h
    · cases h
    · simp at h
    · cases h
  · cases h

lemma advance_of_walk {arrival : Arrival}
    (hd : ∀ start onward, fs.advance followLast here names ≠ .detour start onward)
    (h : fs.walk followLast budget here names = .ok arrival) :
    fs.advance followLast here names = .arrived arrival := by
  unfold walk at h
  split at h
  · rename_i ha
    rw [ha, Except.ok.inj h]
  · cases h
  · rename_i start onward ha
    exact absurd ha (hd start onward)

/-- A walk along a last name that leads down arrives at an entry of that name.  Unless that is a
link, following a link at the end makes no difference. -/
lemma walk_last {last : String} (hdot : last ≠ ".") (hup : last ≠ "..")
    (h : fs.walk false budget here (names ++ [last]) = .ok (.entry there)) :
    ∃ parent node, there = parent ++ [last] ∧ fs.get? there = some node ∧
      ((∀ target, node ≠ .link target) →
        fs.walk true budget here (names ++ [last]) = .ok (.entry there)) := by
  obtain ⟨middle, hmiddle, hd⟩ := walk_front_isDirectory (List.cons_ne_nil last []) h
  obtain ⟨left, hrest⟩ := walk_append false hmiddle (List.cons_ne_nil last [])
  rw [hrest] at h
  have harrived := advance_of_walk (advance_last fs middle last) h
  have hd' : fs.get? middle = some .directory := hd
  by_cases hs : last.utf8ByteSize ≤ maxNameBytes
  · have hdown : fs.Descends middle last := ⟨hd, hdot, hup, hs⟩
    cases hnode : fs.get? (middle ++ [last]) with
    | none =>
      rw [hdown.advance_missing hnode, if_pos rfl] at harrived
      cases harrived
    | some node =>
      by_cases hlink : ∃ target, node = .link target
      · obtain ⟨target, rfl⟩ := hlink
        rw [hdown.advance_link hnode, if_pos ⟨rfl, rfl⟩] at harrived
        obtain rfl := Arrival.entry.inj (Leg.arrived.inj harrived)
        exact ⟨middle, _, rfl, hnode, fun hl => absurd rfl (hl target)⟩
      · have hl : ∀ target, node ≠ .link target := fun target he => hlink ⟨target, he⟩
        rw [hdown.advance_down hnode hl, advance] at harrived
        obtain rfl := Arrival.entry.inj (Leg.arrived.inj harrived)
        obtain ⟨left', hrest'⟩ := walk_append true hmiddle (List.cons_ne_nil last [])
        refine ⟨middle, node, rfl, hnode, fun _ => ?_⟩
        rw [hrest', walk_of_arrived (by rw [hdown.advance_down hnode hl, advance])]
  · rw [advance, hd'] at harrived
    simp [hdot, hup, Nat.lt_of_not_le hs] at harrived

/-! ## Names without dots -/

/-- The second list is the first without some of the `.` in it. -/
inductive Undotted : List String → List String → Prop
  | nil : Undotted [] []
  | keep {names names' : List String} (name : String) (h : Undotted names names') :
      Undotted (name :: names) (name :: names')
  | drop {names names' : List String} (h : Undotted names names') : Undotted ("." :: names) names'

namespace Undotted

lemma refl (names : List String) : Undotted names names := by
  induction names with
  | nil => exact .nil
  | cons name names ih => exact .keep name ih

lemma append_left (front : List String) (h : Undotted names names') :
    Undotted (front ++ names) (front ++ names') := by
  induction front with
  | nil => exact h
  | cons name front ih => exact .keep name ih

lemma filter (names : List String) : Undotted names
    (names.filter fun name => decide (name ≠ ".")) := by
  induction names with
  | nil => exact .nil
  | cons name names ih =>
    by_cases hdot : name = "."
    · rw [List.filter_cons, if_neg (by simp [hdot]), hdot]
      exact .drop ih
    · rw [List.filter_cons, if_pos (by simp [hdot])]
      exact .keep name ih

lemma trans {names'' : List String} (h : Undotted names names') (h' : Undotted names' names'') :
    Undotted names names'' := by
  induction h generalizing names'' with
  | nil => exact h'
  | keep name _ ih =>
    cases h' with
    | keep _ h' => exact .keep name (ih h')
    | drop h' => exact .drop (ih h')
  | drop _ ih => exact .drop (ih h')

lemma subset (h : Undotted names names') : names' ⊆ names := by
  induction h with
  | nil => exact List.Subset.refl []
  | keep name _ ih => exact List.cons_subset_cons name ih
  | drop _ ih => exact List.subset_cons_of_subset "." ih

/-- Without any `.` the lists are the same. -/
lemma filter_eq (h : Undotted names names') :
    (names.filter fun name => decide (name ≠ ".")) =
      names'.filter fun name => decide (name ≠ ".") := by
  induction h with
  | nil => rfl
  | keep name _ ih => rw [List.filter_cons, List.filter_cons, ih]
  | drop _ ih => rw [List.filter_cons, if_neg (by simp), ih]

lemma mem_or_eq_dot (h : Undotted names names') {name : String} (hn : name ∈ names) :
    name ∈ names' ∨ name = "." := by
  induction h with
  | nil => cases hn
  | keep other _ ih =>
    rcases List.mem_cons.1 hn with rfl | hn
    · exact .inl (List.mem_cons_self ..)
    · exact (ih hn).imp_left (List.mem_cons_of_mem _)
  | drop _ ih =>
    rcases List.mem_cons.1 hn with rfl | hn
    · exact .inr rfl
    · exact ih hn

end Undotted

/-- A leg that a `.` less makes no difference to, if it is firm. -/
def Undots : Leg → Leg → Prop
  | .arrived (.entry place), leg => leg = .arrived (.entry place)
  | .detour start onward, leg => ∃ onward', leg = .detour start onward' ∧ Undotted onward onward'
  | _, _ => True

lemma advance_undotted (fs : FileSystem) (here : Location) (h : Undotted names names') :
    Undots (fs.advance true here names) (fs.advance true here names') := by
  induction h generalizing here with
  | nil => exact rfl
  | @keep names names' name h ih =>
    rw [advance, advance]
    split
    · trivial
    · split
      · exact ih here
      split
      · exact ih here.dropLast
      split
      · trivial
      split
      · split <;> trivial
      · rename_i target hl
        have hfollow : ¬ (names = [] ∧ true = false) := by simp
        have hfollow' : ¬ (names' = [] ∧ true = false) := by simp
        rw [if_neg hfollow, if_neg hfollow']
        exact ⟨_, rfl, h.append_left _⟩
      · exact ih _
    · trivial
  | @drop names names' h ih =>
    rw [advance]
    split
    · trivial
    · exact ih here
    · trivial

/-- A `.` less among its names does not keep a walk from arriving. -/
lemma walk_undotted (hu : Undotted names names')
    (h : fs.walk true budget here names = .ok (.entry there)) :
    fs.walk true budget here names' = .ok (.entry there) := by
  refine walk_induction (motive := fun budget here names => ∀ names', Undotted names names' →
    fs.walk true budget here names' = .ok (.entry there)) ?_ ?_ h names' hu
  · intro budget here names ha names' hu
    have hleg := advance_undotted fs here hu
    rw [ha] at hleg
    exact walk_of_arrived hleg
  · intro budget here names start onward ha ih names' hu
    have hleg := advance_undotted fs here hu
    rw [ha] at hleg
    obtain ⟨onward', hd, hu'⟩ := hleg
    rw [walk_of_detour hd, ih onward' hu']

/-! ## Names with dots -/

/-- A leg that a further `.` makes no difference to, if it is one that leads on or to
a directory. -/
def Dots (fs : FileSystem) : Leg → Leg → Prop
  | .arrived (.entry place), leg => fs.isDirectory place → leg = .arrived (.entry place)
  | .detour start onward, leg => ∃ onward', leg = .detour start onward' ∧ Undotted onward' onward
  | _, _ => True

lemma advance_dotted (fs : FileSystem) (here : Location) (h : Undotted names names') :
    fs.Dots (fs.advance true here names') (fs.advance true here names) := by
  induction h generalizing here with
  | nil => exact fun _ => rfl
  | @keep names names' name h ih =>
    rw [advance, advance]
    split
    · trivial
    · split
      · exact ih here
      split
      · exact ih here.dropLast
      split
      · trivial
      split
      · split <;> trivial
      · have hfollow : ¬ (names = [] ∧ true = false) := by simp
        have hfollow' : ¬ (names' = [] ∧ true = false) := by simp
        rw [if_neg hfollow, if_neg hfollow']
        exact ⟨_, rfl, h.append_left _⟩
      · exact ih _
    · trivial
  | @drop names names' h ih =>
    by_cases hd : fs.isDirectory here
    · rw [advance_dot hd]
      exact ih here
    · -- What is no directory cannot be walked on from; there is nothing to walk along either.
      cases names' with
      | nil =>
        rw [advance]
        exact fun hd' => absurd hd' hd
      | cons name rest =>
        rw [advance]
        split
        · trivial
        · next hdir => exact absurd hdir hd
        · trivial

/-- A further `.` among its names does not keep a walk from arriving at a directory. -/
lemma walk_dotted (hu : Undotted names names') (hd : fs.isDirectory there)
    (h : fs.walk true budget here names' = .ok (.entry there)) :
    fs.walk true budget here names = .ok (.entry there) := by
  refine walk_induction (motive := fun budget here names' => ∀ names, Undotted names names' →
    fs.walk true budget here names = .ok (.entry there)) ?_ ?_ h names hu
  · intro budget here names' ha names hu
    have hleg := advance_dotted fs here hu
    rw [ha] at hleg
    exact walk_of_arrived (hleg hd)
  · intro budget here names' start onward ha ih names hu
    have hleg := advance_dotted fs here hu
    rw [ha] at hleg
    obtain ⟨onward', hdetour, hu'⟩ := hleg
    rw [walk_of_detour hdetour, ih onward' hu']

/-- If a walk arrives at an entry, it does so without the `.` among its names, also if a link at the
very end is not followed. -/
lemma walk_filtered (h : fs.walk false budget here names = .ok (.entry there)) :
    ∃ place, fs.walk false budget here (names.filter fun name => decide (name ≠ ".")) =
      .ok (.entry place) := by
  rcases List.eq_nil_or_concat names with rfl | ⟨front, last, rfl⟩
  · exact ⟨there, h⟩
  rw [List.concat_eq_append] at h ⊢
  obtain ⟨middle, hmiddle, hd⟩ := walk_front_isDirectory (List.cons_ne_nil last []) h
  have hfront := walk_undotted (.filter front) hmiddle
  rw [List.filter_append]
  by_cases hdot : last = "."
  · obtain ⟨place, hplace⟩ := walk_unfollowed hfront
    exact ⟨place, by rw [hdot]; simpa using hplace⟩
  · have hlast : [last].filter (fun name => decide (name ≠ ".")) = [last] := by simp [hdot]
    obtain ⟨left, hrest⟩ := walk_append false hmiddle (List.cons_ne_nil last [])
    obtain ⟨left', hrest'⟩ := walk_append false hfront (List.cons_ne_nil last [])
    rw [hrest] at h
    rw [hlast, hrest']
    -- A link at the very end is not followed, so what is left of the budget does not matter.
    have harrived := advance_of_walk (advance_last fs middle last) h
    exact ⟨there, walk_of_arrived harrived⟩

end SourceAtlas.FileSystem
