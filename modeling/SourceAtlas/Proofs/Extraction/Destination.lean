import SourceAtlas.Extraction.Destination
import SourceAtlas.Proofs.Files.Runs
import SourceAtlas.Proofs.Path.Entry

/-!
# Where destinations lead

Resolving a path to its end yields a location that no link lies on, whatever the links on the
way (`resolved_of_settled`).  By the path text of such a location nothing else is reached:
what is made or opened by it is made or opened there (`FileSystem.Reserves`).  Hence a
destination is a place strictly below the resolved root, and the place itself, not a link to
another one (`resolveDestination_below`).

What is left over from a loop of links is not resolved to its end.  The names behind the loop are
worked off by their spelling alone, which can take the loop out of the path again; then following
the rest meets no loop, so it is handed out, and it may be a link (`resolveDestination_of_looping`).
Such a destination lies below the root by its names only (`leftover_leads_outside`).
-/

namespace SourceAtlas

open FileSystem

variable {fs : FileSystem} {here there location destination base : Location} {names : List String}
  {path root raw : String}

namespace FileSystem

/-! ## Locations without links -/

/-- A location as resolving a path yields it: no link lies on it, and its names are plain. -/
structure Resolved (fs : FileSystem) (location : Location) : Prop where
  straight : fs.Straight location
  plain : ∀ name ∈ location, PlainName name

namespace Resolved

lemma nil (fs : FileSystem) : fs.Resolved [] := by
  refine ⟨fun above target hp hl => ?_, by simp⟩
  rw [List.prefix_nil.1 hp, get?_nil] at hl
  cases hl

lemma upper (h : fs.Resolved location) : fs.Resolved location.dropLast :=
  ⟨h.straight.upper (List.dropLast_prefix _),
    fun name hn => h.plain name ((List.dropLast_prefix _).subset hn)⟩

lemma down {name : String} (h : fs.Resolved location) (hn : PlainName name)
    (hl : ∀ target, fs.get? (location ++ [name]) ≠ some (.link target)) :
    fs.Resolved (location ++ [name]) := by
  constructor
  · intro above target hp
    rcases List.prefix_concat_iff.1 hp with rfl | hp
    · exact hl target
    · exact h.straight above target hp
  · intro other ho
    rcases List.mem_append.1 ho with ho | ho
    · exact h.plain other ho
    · rw [List.mem_singleton.1 ho]
      exact hn

lemma targetStart (h : fs.Resolved location) (target : String) :
    fs.Resolved (targetStart location target) := by
  rw [FileSystem.targetStart]
  split
  · exact nil fs
  · exact h

end Resolved

/-- Names that are worked off from a location without links lead to one, if the targets of
links do. -/
lemma resolved_of_expandWith {follow : Location → Location → List String → Resolution}
    (hfollow : ∀ link start target there, fs.Resolved start →
      follow link start (relativeSegments target) = .settled there → fs.Resolved there)
    (hhere : fs.Resolved here) (hnames : ∀ name ∈ names, '/' ∉ name.toList)
    (h : fs.expandWith follow here names = .settled there) : fs.Resolved there := by
  induction names generalizing here with
  | nil =>
    obtain rfl := Resolution.settled.inj h
    exact hhere
  | cons name rest ih =>
    have hrest : ∀ other ∈ rest, '/' ∉ other.toList := fun other ho =>
      hnames other (List.mem_cons_of_mem _ ho)
    rw [expandWith] at h
    split at h
    · exact ih hhere hrest h
    rename_i hskip
    rw [not_or] at hskip
    split at h
    · exact ih hhere.upper hrest h
    rename_i hup
    split at h
    · next target hlink =>
      split at h
      · next middle hmiddle =>
        exact ih (hfollow _ _ target middle (hhere.targetStart target) hmiddle) hrest h
      · cases h
    · next hno =>
      exact ih (hhere.down ⟨hskip.1, hskip.2, hup, hnames name (List.mem_cons_self ..)⟩ hno) hrest h

lemma slash_notMem_relativeSegments (path : String) :
    ∀ name ∈ relativeSegments path, '/' ∉ name.toList := by
  intro name hn
  rw [relativeSegments] at hn
  split at hn
  · exact Path.slash_notMem_of_mem_segments (List.mem_of_mem_drop hn)
  · exact Path.slash_notMem_of_mem_segments hn

lemma resolved_of_expand {depth : Nat} {active : List Location} (hhere : fs.Resolved here)
    (hnames : ∀ name ∈ names, '/' ∉ name.toList)
    (h : fs.expand depth active here names = .settled there) : fs.Resolved there := by
  induction depth generalizing active here names there with
  | zero =>
    refine resolved_of_expandWith ?_ hhere hnames h
    intro link start target there _ hsettled
    cases hsettled
  | succ depth ih =>
    refine resolved_of_expandWith ?_ hhere hnames h
    intro link start target there hstart hsettled
    split at hsettled
    · cases hsettled
    · exact ih hstart (slash_notMem_relativeSegments target) hsettled

/-- A path that starts at the root is resolved to a location without links, unless a loop is met. -/
theorem resolved_of_settled (ha : Path.isAbsolute path = true)
    (h : fs.resolution path = .settled location) : fs.Resolved location := by
  rw [resolution, targetStart, if_pos ha] at h
  exact resolved_of_expand (.nil fs) (slash_notMem_relativeSegments path) h

lemma resolve_eq_ok (h : fs.resolve path = .ok location) :
    fs.resolution path = .settled location ∨ fs.resolution path = .looping location := by
  rw [resolve] at h
  split at h
  · cases h
  split at h
  · next hs =>
    obtain rfl := Except.ok.inj h
    exact .inl hs
  · next hl =>
    split at h
    · cases h
    · obtain rfl := Except.ok.inj h
      exact .inr hl

/-! ## What is done by the path text of a location -/

/-- Nothing differs except at one place. -/
def SameBut (fs fs' : FileSystem) (place : Location) : Prop :=
  fs'.workingDirectory = fs.workingDirectory ∧
    ∀ other, other ≠ place → fs'.get? other = fs.get? other

/-- No link lies on a location, which is its own resolved form, and what is followed, made or opened
by its path text is the location itself. -/
structure Reserves (fs : FileSystem) (location : Location) : Prop where
  straight : fs.Straight location
  again : '\x00' ∉ location.toPath.toList → fs.resolve location.toPath = .ok location
  follows : ∀ followLast place, fs.locate followLast location.toPath = .ok place → place = location
  makes : ∀ fs', fs.makeDirectory location.toPath = .ok fs' → fs.SameBut fs' location
  opens : ∀ place fs', fs.openForWriting location.toPath = .ok (place, fs') →
    place = location ∧ fs.SameBut fs' location

lemma sameBut_insert {node : Node} (hv : fs.Vacant location) :
    fs.SameBut (fs.insert location node) location := by
  refine ⟨(insert_grows hv).workingDirectory, fun other ho => ?_⟩
  rw [get?_insert hv, if_neg ho]

lemma sameBut_overwrite (fs : FileSystem) (location : Location) (content : ByteArray) :
    fs.SameBut (fs.overwrite location content) location :=
  ⟨rfl, fun _ ho => get?_overwrite_of_ne ho⟩

lemma Resolved.reserves (h : fs.Resolved location) (hne : location ≠ []) :
    fs.Reserves location := by
  refine ⟨h.straight, resolve_straight h.straight h.plain hne, fun followLast place hplace => ?_,
    fun fs' hmade => ?_, fun place fs' hopen => ?_⟩
  · rw [locate, lookup, Location.route_toPath h.plain] at hplace
    rcases walkText_straight followLast h.straight h.plain with
      ⟨-, -, hw⟩ | ⟨p, n, -, -, hw⟩ | ⟨e, hw⟩
    · rw [hw] at hplace
      exact (Except.ok.inj hplace).symm
    · rw [hw] at hplace
      cases hplace
    · rw [hw] at hplace
      cases hplace
  · obtain ⟨hv, rfl⟩ := makeDirectory_straight h.straight h.plain hmade
    exact sameBut_insert hv
  · obtain ⟨rfl, ⟨hv, rfl⟩ | ⟨-, rfl⟩⟩ := openForWriting_straight h.straight h.plain hne hopen
    · exact ⟨rfl, sameBut_insert hv⟩
    · exact ⟨rfl, sameBut_overwrite fs _ _⟩

end FileSystem

/-! ## Destinations -/

/-- What is asked of a destination. -/
lemma on_resolveDestination_eq_ok :
    ((resolveDestination root raw).on fs).1 = .ok destination ↔
      ∃ names base, EntryPath.ofRaw raw = .ok names ∧ fs.resolve root = .ok base ∧
        fs.resolve (Location.toPath (base ++ names)) = .ok destination ∧
        base <+: destination ∧ destination ≠ base := by
  rw [resolveDestination]
  cases hraw : EntryPath.ofRaw raw with
  | error fault => simp
  | ok names =>
    dsimp only
    rw [Action.on_bind, Action.on_resolve]
    rcases hroot : fs.resolve root with (_ | text) | base
    · simp
    · simp
    dsimp only
    rw [Action.on_bind, Action.on_resolve]
    rcases hplace : fs.resolve (Location.toPath (base ++ names)) with (_ | text) | place
    · simp [hplace]
    · simp [hplace]
    dsimp only
    have hwithin : ((PurePath.mk 1 base).isWithin ⟨1, place⟩ && place != base) = true ↔
        base <+: place ∧ place ≠ base := by
      rw [Bool.and_eq_true, PurePath.isWithin_iff, bne_iff_ne]
    constructor
    · intro h
      split at h
      · rename_i hp
        obtain rfl := Except.ok.inj h
        exact ⟨names, base, rfl, rfl, hplace, hwithin.1 hp⟩
      · cases h
    · rintro ⟨names', base', hnames, hbase, hplace', hp⟩
      obtain rfl := Except.ok.inj hnames
      obtain rfl := Except.ok.inj hbase
      obtain rfl := Except.ok.inj (hplace.symm.trans hplace')
      rw [if_pos (hwithin.2 hp)]
      rfl

/-- Asking for a destination changes nothing. -/
lemma readsOnly_resolveDestination (root raw : String) :
    Action.ReadsOnly (resolveDestination root raw) := by
  rw [resolveDestination]
  split
  · exact Action.readsOnly_throw _
  · refine (Action.readsOnly_resolve root).bind fun base =>
      (Action.readsOnly_resolve _).bind fun place => ?_
    split
    · exact Action.readsOnly_pure place
    · exact Action.readsOnly_throw _

/-- What is left over from a loop is handed out if it lies below the root by its names and following
it meets no loop. -/
theorem resolveDestination_of_looping (hnames : EntryPath.ofRaw raw = .ok names)
    (hbase : fs.resolve root = .ok base) (hz : '\x00' ∉ (Location.toPath (base ++ names)).toList)
    (hleft : fs.resolution (Location.toPath (base ++ names)) = .looping destination)
    (hfollowed : fs.locate true destination.toPath ≠ .error (.os .tooManyLinks))
    (hp : base <+: destination) (hne : destination ≠ base) :
    (resolveDestination root raw).on fs = (.ok destination, fs) := by
  have hplace : fs.resolve (Location.toPath (base ++ names)) = .ok destination := by
    rw [resolve, if_neg hz, hleft]
    dsimp only
    split
    · rename_i htoo
      exact absurd htoo hfollowed
    · rfl
  exact Prod.ext (on_resolveDestination_eq_ok.2 ⟨names, base, hnames, hbase, hplace, hp, hne⟩)
    (readsOnly_resolveDestination root raw fs)

/-- A link in a root that leads back to itself and by its spelling to a link next to it, which
leads outside. -/
def loopingStart : FileSystem :=
  ((((FileSystem.empty [] ⟨0⟩).insert ["outside"] .directory).insert ["job"] .directory).insert
    ["job", "out"] (.link "../outside/evil")).insert ["job", "a"] (.link "a/../out")

/-- A destination is a link, and what is written by its path is written outside the root. -/
theorem leftover_leads_outside :
    (resolveDestination "job" "a").on loopingStart = (.ok ["job", "out"], loopingStart) ∧
      loopingStart.get? ["job", "out"] = some (.link "../outside/evil") ∧
      ∃ fs', loopingStart.openForWriting (Location.toPath ["job", "out"]) =
          .ok (["outside", "evil"], fs') ∧
        fs'.get? ["outside", "evil"] = some (.file .empty) := by
  have hnames : EntryPath.ofRaw "a" = .ok ["a"] := by decide +kernel
  have hbase : loopingStart.resolve "job" = .ok ["job"] := by decide +kernel
  have hz : '\x00' ∉ (Location.toPath (["job"] ++ ["a"])).toList := by decide +kernel
  have hleft : loopingStart.resolution (Location.toPath (["job"] ++ ["a"])) =
      .looping ["job", "out"] := by
    decide +kernel
  have hfollowed : loopingStart.locate true (Location.toPath ["job", "out"]) ≠
      .error (.os .tooManyLinks) := by
    decide +kernel
  have hlook : loopingStart.lookup true (Location.toPath ["job", "out"]) =
      .ok (.vacant ["outside"] "evil") := by
    decide +kernel
  have hslash : hasTrailingSlash (Location.toPath ["job", "out"]) = false := by decide +kernel
  have hvacant : loopingStart.Vacant ["outside", "evil"] := by decide +kernel
  refine ⟨resolveDestination_of_looping hnames hbase hz hleft hfollowed ⟨["out"], rfl⟩ (by decide),
    by decide +kernel, loopingStart.insert ["outside", "evil"] (.file .empty), ?_, ?_⟩
  · rw [openForWriting, hslash, if_neg (by simp), hlook]
    rfl
  · rw [get?_insert hvacant, if_pos rfl]

end SourceAtlas
