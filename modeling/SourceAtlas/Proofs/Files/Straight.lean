import Mathlib.Data.List.Induction
import SourceAtlas.Proofs.Files.Walk

/-!
# Walking along a location

A location is straight if no link lies on it (`FileSystem.Straight`).  A walk along its path text
takes no detour, so it ends at the location itself or is stopped; `walkText_straight` says which of
the two, and why.  Whatever exists is straight above itself, because only directories hold entries.
-/

namespace SourceAtlas.FileSystem

variable {fs : FileSystem} {followLast : Bool} {here location above : Location} {node : Node}
  {name : String} {names rest : List String}

@[simp] lemma get?_nil (fs : FileSystem) : fs.get? [] = some .directory := if_pos rfl

/-! ## What lies above an entry -/

/-- Only directories lie above an entry. -/
lemma isDirectory_of_above (h : fs.get? location = some node) (hp : above <+: location)
    (hne : above ≠ location) : fs.isDirectory above := by
  obtain ⟨below, rfl⟩ := hp
  induction below using List.reverseRecOn generalizing node with
  | nil => exact absurd (List.append_nil above).symm hne
  | append_singleton below name ih =>
    rw [← List.append_assoc] at h
    have hd : fs.get? (above ++ below) = some .directory := (parent_of_get? h).1
    by_cases hb : below = []
    · rw [hb, List.append_nil] at hd
      exact hd
    · exact ih hd (by simpa using hb)

lemma isDirectory_above (h : fs.isDirectory location) (hp : above <+: location) :
    fs.isDirectory above := by
  by_cases he : above = location
  · exact he ▸ h
  · exact isDirectory_of_above h hp he

/-- The names on the way to an entry are names that a directory can hold. -/
lemma validName_of_get? (h : fs.get? location = some node) (hn : name ∈ location) :
    ValidName name := by
  obtain ⟨front, back, rfl⟩ := List.append_of_mem hn
  have hp : front ++ [name] <+: front ++ name :: back := ⟨back, by simp⟩
  obtain ⟨node', h'⟩ : ∃ node', fs.get? (front ++ [name]) = some node' := by
    by_cases he : front ++ [name] = front ++ name :: back
    · exact ⟨node, he ▸ h⟩
    · exact ⟨_, isDirectory_of_above h hp he⟩
  exact (parent_of_get? h').2

/-- Nothing lies below something that does not exist. -/
lemma get?_eq_none_of_above (h : fs.get? above = none) (hp : above <+: location) :
    fs.get? location = none := by
  by_contra hne
  obtain ⟨node, hn⟩ := Option.ne_none_iff_exists'.1 hne
  by_cases he : above = location
  · rw [he, hn] at h
    cases h
  · have hd : fs.get? above = some .directory := isDirectory_of_above hn hp he
    rw [hd] at h
    cases h

/-! ## Straight locations -/

/-- No link lies at a location or above it. -/
def Straight (fs : FileSystem) (location : Location) : Prop :=
  ∀ above target, above <+: location → fs.get? above ≠ some (.link target)

lemma Straight.upper (h : fs.Straight location) (hp : above <+: location) :
    fs.Straight above :=
  fun other target ho => h other target (ho.trans hp)

lemma straight_of_isDirectory (h : fs.isDirectory location) : fs.Straight location := by
  intro above target hp hl
  have hd : fs.get? above = some .directory := isDirectory_above h hp
  rw [hd] at hl
  cases hl

/-- A walk passes through the directories of a straight location. -/
lemma advance_through (followLast : Bool) (here : Location) (hs : fs.Straight (here ++ names))
    (he : fs.get? (here ++ names) = some node) :
    fs.advance followLast here (names ++ rest) = fs.advance followLast (here ++ names) rest := by
  induction names generalizing here with
  | nil => simp
  | cons name names ih =>
    have happ : here ++ name :: names = (here ++ [name]) ++ names := by simp
    have hpre : here ++ [name] <+: here ++ name :: names := ⟨names, happ.symm⟩
    have hd : fs.isDirectory here :=
      isDirectory_of_above he (List.prefix_append _ _) (by simp)
    have hv : ValidName name := validName_of_get? he (by simp)
    obtain ⟨node', hn⟩ : ∃ node', fs.get? (here ++ [name]) = some node' := by
      by_cases hend : here ++ [name] = here ++ name :: names
      · exact ⟨node, hend ▸ he⟩
      · exact ⟨_, isDirectory_of_above he hpre hend⟩
    have hdown : fs.Descends here name := ⟨hd, hv.2.1, hv.2.2.1, hv.size_le⟩
    rw [List.cons_append, hdown.advance_down hn fun target ht => hs _ target hpre (ht ▸ hn), happ]
    exact ih _ (happ ▸ hs) (happ ▸ he)

/-- A walk along a straight location takes no detour and, if it ends, ends there. -/
lemma advance_straight (followLast : Bool) (here : Location) (hs : fs.Straight (here ++ names))
    (hp : ∀ name ∈ names, PlainName name)
    (hh : fs.get? here = some node) :
    (∃ node, fs.get? (here ++ names) = some node ∧
        fs.advance followLast here names = .arrived (.entry (here ++ names))) ∨
      (∃ parent name, here ++ names = parent ++ [name] ∧
        fs.advance followLast here names = .arrived (.vacant parent name)) ∨
      ∃ code, fs.advance followLast here names = .stopped code := by
  induction names generalizing here node with
  | nil => exact .inl ⟨node, by rwa [List.append_nil], by rw [advance, List.append_nil]⟩
  | cons name names ih =>
    have happ : here ++ name :: names = (here ++ [name]) ++ names := by simp
    by_cases hdown : fs.Descends here name
    · cases hn : fs.get? (here ++ [name]) with
      | none =>
        rw [hdown.advance_missing hn]
        by_cases hnil : names = []
        · exact .inr (.inl ⟨here, name, by rw [hnil], if_pos hnil⟩)
        · exact .inr (.inr ⟨.notFound, if_neg hnil⟩)
      | some node' =>
        have hl : ∀ target, node' ≠ .link target := fun target ht =>
          hs _ target ⟨names, happ.symm⟩ (ht ▸ hn)
        rw [hdown.advance_down hn hl, happ]
        exact ih _ (happ ▸ hs) (fun other ho => hp other (List.mem_cons_of_mem _ ho)) hn
    · have hplain := hp name (by simp)
      refine .inr (.inr ?_)
      rw [advance, hh]
      cases node with
      | directory =>
        have hlong : maxNameBytes < name.utf8ByteSize := by
          by_contra hshort
          exact hdown ⟨hh, hplain.2.1, hplain.2.2.1, Nat.not_lt.1 hshort⟩
        exact ⟨.nameTooLong, by simp [hplain.2.1, hplain.2.2.1, hlong]⟩
      | _ => exact ⟨_, rfl⟩

/-- A walk stops where the first directory on the way is missing. -/
lemma advance_notFound (here : Location) (hp : ∀ name ∈ names, ValidName name)
    (hclear : ∀ above, above <+: here ++ names → fs.get? above = none ∨ fs.isDirectory above)
    (hd : fs.isDirectory here) (hm : fs.get? (here ++ names).dropLast = none) :
    fs.advance followLast here names = .stopped .notFound := by
  induction names generalizing here with
  | nil =>
    have hd' : fs.get? (here ++ []).dropLast = some .directory :=
      isDirectory_above hd (by simpa using List.dropLast_prefix here)
    rw [hm] at hd'
    cases hd'
  | cons name names ih =>
    have happ : here ++ name :: names = (here ++ [name]) ++ names := by simp
    have hv := hp name (by simp)
    have hdown : fs.Descends here name := ⟨hd, hv.2.1, hv.2.2.1, hv.size_le⟩
    rcases hclear (here ++ [name]) ⟨names, happ.symm⟩ with hn | hn
    · have hne : names ≠ [] := by
        rintro rfl
        rw [List.dropLast_concat, hd] at hm
        cases hm
      rw [hdown.advance_missing hn, if_neg hne]
    · rw [hdown.advance_down hn (by simp)]
      exact ih _ (fun other ho => hp other (List.mem_cons_of_mem _ ho))
        (fun above ha => hclear above (happ ▸ ha)) hn (happ ▸ hm)

end SourceAtlas.FileSystem
