/-!
# Splitting a text at a separator

A path is a text cut at its slashes, a list setting is a text cut at its commas.  `splitOn` cuts at
every separator and keeps empty pieces, so a text with `n` separators has `n + 1` pieces and
nothing is lost: `joinWith_splitOn` puts the text together again.
-/

namespace SourceAtlas.Text

/-- The pieces of a list of characters between the separators, empty pieces included. -/
def splitOn (separator : Char) : List Char → List (List Char)
  | [] => [[]]
  | c :: rest =>
    if c = separator then [] :: splitOn separator rest
    else
      match splitOn separator rest with
      | [] => [[c]]
      | piece :: pieces => (c :: piece) :: pieces

/-- Pieces put together with a separator between neighbours. -/
def joinWith (separator : Char) : List (List Char) → List Char
  | [] => []
  | [piece] => piece
  | piece :: next :: pieces => piece ++ separator :: joinWith separator (next :: pieces)

theorem splitOn_ne_nil (separator : Char) (text : List Char) : splitOn separator text ≠ [] := by
  cases text with
  | nil => simp [splitOn]
  | cons c rest =>
    rw [splitOn]
    split
    · simp
    · split <;> simp

/-- Splitting loses nothing. -/
theorem joinWith_splitOn (separator : Char) (text : List Char) :
    joinWith separator (splitOn separator text) = text := by
  induction text with
  | nil => rfl
  | cons c rest ih =>
    rw [splitOn]
    split
    · rename_i h
      have hne := splitOn_ne_nil separator rest
      cases hs : splitOn separator rest with
      | nil => exact absurd hs hne
      | cons piece pieces => rw [joinWith, ← hs, ih, h]; rfl
    · split
      · rename_i hs
        exact absurd hs (splitOn_ne_nil separator rest)
      · rename_i piece pieces hs
        rw [hs] at ih
        cases pieces with
        | nil => simpa [joinWith] using ih
        | cons next pieces => simp only [joinWith, List.cons_append] at ih ⊢; rw [ih]

/-- No piece holds the separator. -/
theorem separator_notMem_of_mem_splitOn {separator : Char} {text piece : List Char}
    (h : piece ∈ splitOn separator text) : separator ∉ piece := by
  induction text generalizing piece with
  | nil => simp [splitOn] at h; simp [h]
  | cons c rest ih =>
    rw [splitOn] at h
    split at h
    · rcases List.mem_cons.1 h with rfl | h
      · simp
      · exact ih h
    · rename_i hc
      split at h
      · simp only [List.mem_singleton] at h
        subst h
        simpa using fun h => hc h.symm
      · rename_i first pieces hs
        rcases List.mem_cons.1 h with rfl | h
        · have : separator ∉ first := ih (by rw [hs]; simp)
          simp only [List.mem_cons, not_or]
          exact ⟨fun h => hc h.symm, this⟩
        · exact ih (by rw [hs]; exact List.mem_cons_of_mem _ h)

/-- The pieces of a string between the separators. -/
def pieces (separator : Char) (text : String) : List String :=
  (splitOn separator text.toList).map String.ofList

/-- Strings put together with a separator between neighbours. -/
def join (separator : Char) (parts : List String) : String :=
  String.ofList (joinWith separator (parts.map String.toList))

theorem join_pieces (separator : Char) (text : String) :
    join separator (pieces separator text) = text := by
  simp [join, pieces, Function.comp_def, joinWith_splitOn]

end SourceAtlas.Text
