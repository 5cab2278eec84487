import SourceAtlas.Proofs.Files.Operations

/-!
# A resolved path is where a walk arrives

`FileSystem.resolve` works out a place by reading links one inside the other, `FileSystem.walk`
follows them one after the other and gives up after `linkBudget` of them.  Main statement: if a walk
along a path text arrives at an entry that is not a link, then the text resolves to the location of
that entry (`resolve_of_walkText`).

`Leads` is the common description: names lead from one place to another, following a certain number
of links.  Place and number are determined by the names (`Leads.unique`), hence a link cannot be met
while its own target is being worked out, since it would cost less than itself.  This is what keeps
`expand` from seeing a loop, and its recursion depth from running out.
-/

namespace SourceAtlas.FileSystem

variable {fs : FileSystem} {followLast : Bool} {budget count : Nat} {here there : Location}
  {names : List String}

/-- Names lead from one place to another; `count` links are followed on the way. -/
inductive Leads (fs : FileSystem) : Nat → Location → List String → Location → Prop
  | arrived (here : Location) : fs.Leads 0 here [] here
  | dot {count here name rest there} (hn : name = ".") (hd : fs.isDirectory here)
      (h : fs.Leads count here rest there) : fs.Leads count here (name :: rest) there
  | up {count here name rest there} (hn : name = "..") (hd : fs.isDirectory here)
      (h : fs.Leads count here.dropLast rest there) : fs.Leads count here (name :: rest) there
  | down {count here name rest there node} (hd : fs.Descends here name)
      (hn : fs.get? (here ++ [name]) = some node) (hl : ∀ target, node ≠ .link target)
      (h : fs.Leads count (here ++ [name]) rest there) : fs.Leads count here (name :: rest) there
  | link {inner count here name target middle rest there} (hd : fs.Descends here name)
      (hl : fs.get? (here ++ [name]) = some (.link target))
      (ht : fs.Leads inner (origin target here) (route target) middle)
      (h : fs.Leads count middle rest there) :
      fs.Leads (inner + count + 1) here (name :: rest) there

namespace Leads

/-- What names lead to, and over how many links, is determined. -/
lemma unique {count' : Nat} {there' : Location} (h : fs.Leads count here names there)
    (h' : fs.Leads count' here names there') : count = count' ∧ there = there' := by
  induction h generalizing count' there' with
  | arrived here =>
    cases h'
    exact ⟨rfl, rfl⟩
  | dot hn hd h ih =>
    cases h' with
    | dot _ _ h' => exact ih h'
    | up hn' => simp [hn] at hn'
    | down hd' => exact absurd hn hd'.ne_dot
    | link hd' => exact absurd hn hd'.ne_dot
  | up hn hd h ih =>
    cases h' with
    | dot hn' => simp [hn] at hn'
    | up _ _ h' => exact ih h'
    | down hd' => exact absurd hn hd'.ne_up
    | link hd' => exact absurd hn hd'.ne_up
  | down hd hn hl h ih =>
    cases h' with
    | dot hn' => exact absurd hn' hd.ne_dot
    | up hn' => exact absurd hn' hd.ne_up
    | down _ _ _ h' => exact ih h'
    | link _ hl' => exact absurd (Option.some.inj (hn.symm.trans hl')) (hl _)
  | link hd hl ht h iht ih =>
    cases h' with
    | dot hn' => exact absurd hn' hd.ne_dot
    | up hn' => exact absurd hn' hd.ne_up
    | down _ hn' hl' => exact absurd (Option.some.inj (hn'.symm.trans hl)) (hl' _)
    | link _ hl' ht' h' =>
      obtain rfl := Node.link.inj (Option.some.inj (hl.symm.trans hl'))
      obtain ⟨rfl, rfl⟩ := iht ht'
      obtain ⟨rfl, rfl⟩ := ih h'
      exact ⟨rfl, rfl⟩

lemma append_inv {first second : List String} (h : fs.Leads count here (first ++ second) there) :
    ∃ i j middle, fs.Leads i here first middle ∧ fs.Leads j middle second there ∧
      count = i + j := by
  generalize hnames : first ++ second = names at h
  induction h generalizing first with
  | arrived here =>
    obtain ⟨rfl, rfl⟩ := List.append_eq_nil_iff.1 hnames
    exact ⟨0, 0, here, .arrived here, .arrived here, rfl⟩
  | @dot n here name rest there hn hd h ih =>
    cases first with
    | nil =>
      obtain rfl : second = name :: rest := hnames
      exact ⟨0, n, here, .arrived here, .dot hn hd h, by omega⟩
    | cons head first =>
      obtain ⟨rfl, rfl⟩ := List.cons.inj hnames
      obtain ⟨i, j, middle, h1, h2, rfl⟩ := ih rfl
      exact ⟨i, j, middle, .dot hn hd h1, h2, rfl⟩
  | @up n here name rest there hn hd h ih =>
    cases first with
    | nil =>
      obtain rfl : second = name :: rest := hnames
      exact ⟨0, n, here, .arrived here, .up hn hd h, by omega⟩
    | cons head first =>
      obtain ⟨rfl, rfl⟩ := List.cons.inj hnames
      obtain ⟨i, j, middle, h1, h2, rfl⟩ := ih rfl
      exact ⟨i, j, middle, .up hn hd h1, h2, rfl⟩
  | @down n here name rest there node hd hn hl h ih =>
    cases first with
    | nil =>
      obtain rfl : second = name :: rest := hnames
      exact ⟨0, n, here, .arrived here, .down hd hn hl h, by omega⟩
    | cons head first =>
      obtain ⟨rfl, rfl⟩ := List.cons.inj hnames
      obtain ⟨i, j, middle, h1, h2, rfl⟩ := ih rfl
      exact ⟨i, j, middle, .down hd hn hl h1, h2, rfl⟩
  | @link inner n here name target place rest there hd hl ht h _ ih =>
    cases first with
    | nil =>
      obtain rfl : second = name :: rest := hnames
      exact ⟨0, inner + n + 1, here, .arrived here, .link hd hl ht h, by omega⟩
    | cons head first =>
      obtain ⟨rfl, rfl⟩ := List.cons.inj hnames
      obtain ⟨i, j, middle, h1, h2, rfl⟩ := ih rfl
      exact ⟨inner + i + 1, j, middle, .link hd hl ht h1, h2, by omega⟩

end Leads

/-! ## A walk that arrives leads there -/

lemma leads_of_advance (h : fs.advance followLast here names = .arrived (.entry there))
    (hl : ∀ target, fs.get? there ≠ some (.link target)) :
    ∃ count, fs.Leads count here names there := by
  fun_induction fs.advance followLast here names with
  | case1 here =>
    obtain rfl : here = there := by simpa using h
    exact ⟨0, .arrived here⟩
  | case3 here rest hd ih => exact (ih h).imp fun _ => .dot rfl hd
  | case4 here rest hd _ ih => exact (ih h).imp fun _ => .up rfl hd
  | case8 here name rest hd h1 h2 h3 target hn hlast =>
    obtain rfl : here ++ [name] = there := by simpa using h
    exact absurd hn (hl target)
  | case10 here name rest hd h1 h2 h3 node hlink hn ih =>
    exact (ih h).imp fun _ => .down ⟨hd, h1, h2, Nat.not_lt.1 h3⟩ hn fun target ht =>
      hlink target ht
  | _ => cases h

lemma leads_of_detour {start : Location} {onward : List String}
    (h : fs.advance followLast here names = .detour start onward)
    (ho : fs.Leads count start onward there) : ∃ count, fs.Leads count here names there := by
  fun_induction fs.advance followLast here names with
  | case3 here rest hd ih => exact (ih h).imp fun _ => .dot rfl hd
  | case4 here rest hd _ ih => exact (ih h).imp fun _ => .up rfl hd
  | case9 here name rest hd h1 h2 h3 target hn hlast =>
    obtain ⟨rfl, rfl⟩ : origin target here = start ∧ route target ++ rest = onward := by
      simpa using h
    obtain ⟨i, j, middle, ht, hr, -⟩ := ho.append_inv
    exact ⟨i + j + 1, .link ⟨hd, h1, h2, Nat.not_lt.1 h3⟩ hn ht hr⟩
  | case10 here name rest hd h1 h2 h3 node hlink hn ih =>
    exact (ih h).imp fun _ => .down ⟨hd, h1, h2, Nat.not_lt.1 h3⟩ hn fun target ht =>
      hlink target ht
  | _ => cases h

lemma leads_of_walk (h : fs.walk followLast budget here names = .ok (.entry there))
    (hl : ∀ target, fs.get? there ≠ some (.link target)) :
    ∃ count, fs.Leads count here names there := by
  refine walk_induction
    (motive := fun _ here names => ∃ count, fs.Leads count here names there) ?_ ?_ h
  · intro _ here names ha
    exact leads_of_advance ha hl
  · intro _ here names start onward ha ih
    obtain ⟨count, ho⟩ := ih
    exact leads_of_detour ha ho

/-! ## What leads somewhere is resolved -/

/-- The names that are worked off one by one. -/
def stripped (names : List String) : List String :=
  names.filter fun name => decide (name ≠ "" ∧ name ≠ ".")

lemma stripped_cons_of_skipped {name : String} {rest : List String} (h : name = "" ∨ name = ".") :
    stripped (name :: rest) = stripped rest := by
  rcases h with rfl | rfl <;> rfl

lemma stripped_cons {name : String} {rest : List String} (h1 : name ≠ "") (h2 : name ≠ ".") :
    stripped (name :: rest) = name :: stripped rest := by
  rw [stripped, List.filter_cons, if_pos (by simp [h1, h2]), stripped]

lemma stripped_relativeSegments (path : String) :
    stripped (relativeSegments path) = stripped (Path.segments path) := by
  unfold relativeSegments
  split
  · rename_i h
    obtain ⟨rest, hp⟩ : ∃ rest, path.toList = '/' :: rest := by
      unfold Path.isAbsolute at h
      split at h
      · exact ⟨_, by assumption⟩
      · cases h
    have hs : Path.segments path = "" :: (Text.splitOn '/' rest).map String.ofList := by
      rw [Path.segments, Text.pieces, hp, Text.splitOn, if_pos rfl]
      rfl
    rw [hs, stripped_cons_of_skipped (.inl rfl)]
    rfl
  · rfl

lemma stripped_bareRoute (path : String) :
    stripped (bareRoute path) = stripped (relativeSegments path) := by
  rw [stripped_relativeSegments, stripped, stripped, bareRoute, List.filter_filter]
  congr 1
  funext name
  by_cases hn : name = "" <;> simp [hn]

lemma stripped_route (path : String) : stripped (route path) =
    stripped (relativeSegments path) := by
  rw [← stripped_bareRoute, route]
  split
  · rw [stripped, List.filter_append]
    simp [stripped, bareRoute]
  · rfl

/-- Names that mean nothing do not change what is resolved. -/
lemma expandWith_of_stripped {follow : Location → Location → List String → Resolution}
    (h : fs.expandWith follow here (stripped names) = .settled there) :
    fs.expandWith follow here names = .settled there := by
  induction names generalizing here with
  | nil => exact h
  | cons name rest ih =>
    by_cases hskip : name = "" ∨ name = "."
    · rw [stripped_cons_of_skipped hskip] at h
      rw [expandWith, if_pos hskip, ih h]
    · obtain ⟨h1, h2⟩ := not_or.1 hskip
      rw [stripped_cons h1 h2] at h
      rw [expandWith, if_neg hskip] at h ⊢
      by_cases hup : name = ".."
      · rw [if_pos hup] at h ⊢
        exact ih h
      · rw [if_neg hup] at h ⊢
        split at h
        · split at h
          · exact ih h
          · cases h
        · exact ih h

/-- How many links are followed in working out the target of a link. -/
def Costs (fs : FileSystem) (link : Location) (count : Nat) : Prop :=
  ∃ here name target there, link = here ++ [name] ∧ fs.get? link = some (.link target) ∧
    fs.Leads count (origin target here) (route target) there

lemma Costs.unique {link : Location} {count' : Nat} (h : fs.Costs link count)
    (h' : fs.Costs link count') : count = count' := by
  obtain ⟨here, name, target, there, rfl, hl, h⟩ := h
  obtain ⟨here', name', target', there', he, hl', h'⟩ := h'
  obtain ⟨rfl, rfl⟩ := List.append_singleton_inj.1 he
  obtain rfl := Node.link.inj (Option.some.inj (hl.symm.trans hl'))
  exact (h.unique h').1

lemma length_le_linkCount {links : List Location} (hd : links.Nodup)
    (hl : ∀ link ∈ links, ∃ target, fs.get? link = some (.link target)) :
    links.length ≤ fs.linkCount := by
  rw [linkCount, List.countP_eq_length_filter, ← List.length_map Prod.fst]
  refine hd.length_le_of_subset ?_
  intro link hm
  obtain ⟨target, ht⟩ := hl link hm
  have hne : link ≠ [] := by
    rintro rfl
    rw [get?_nil] at ht
    cases ht
  exact List.mem_map.2 ⟨_, List.mem_filter.2 ⟨(get?_eq_some_iff hne).1 ht, rfl⟩, rfl⟩

section Expand

variable {depth : Nat} {active : List Location} {name : String} {rest : List String}

lemma expand_nil : fs.expand depth active here [] = .settled here := by
  cases depth <;> rfl

lemma expand_up : fs.expand depth active here (".." :: rest) =
    fs.expand depth active here.dropLast rest := by
  cases depth <;> simp [expand, expandWith]

lemma expand_down {node : Node} (hd : fs.Descends here name)
    (hn : fs.get? (here ++ [name]) = some node) (hl : ∀ target, node ≠ .link target) :
    fs.expand depth active here (name :: rest) = fs.expand depth active (here ++ [name]) rest := by
  have hne : name ≠ "" := (parent_of_get? hn).2.1
  cases node with
  | link target => exact absurd rfl (hl target)
  | _ => cases depth <;> simp [expand, expandWith, hne, hd.ne_dot, hd.ne_up, hn]

lemma expand_link {target : String} {middle : Location} (hd : fs.Descends here name)
    (hl : fs.get? (here ++ [name]) = some (.link target)) (hnot : here ++ [name] ∉ active)
    (ht : fs.expand depth ((here ++ [name]) :: active) (origin target here)
      (relativeSegments target) = .settled middle) :
    fs.expand (depth + 1) active here (name :: rest) =
      fs.expand (depth + 1) active middle rest := by
  have hne : name ≠ "" := (parent_of_get? hl).2.1
  have hstart : targetStart here target = origin target here := rfl
  simp [expand, expandWith, hne, hd.ne_dot, hd.ne_up, hl, hnot, hstart, ht]

end Expand

/-- Names that lead somewhere are resolved, as long as the links whose targets are being worked out
cost no less than the names. -/
lemma expand_of_leads (h : fs.Leads count here names there) (depth : Nat) (active : List Location)
    (hd : active.Nodup) (hc : ∀ link ∈ active, ∃ cost, count ≤ cost ∧ fs.Costs link cost)
    (hdepth : fs.linkCount ≤ active.length + depth) :
    fs.expand depth active here (stripped names) = .settled there := by
  induction h generalizing depth active with
  | arrived here => exact expand_nil
  | dot hn _ _ ih =>
    rw [stripped_cons_of_skipped (.inr hn)]
    exact ih depth active hd hc hdepth
  | up hn _ _ ih =>
    rw [hn, stripped_cons (by decide) (by decide), expand_up]
    exact ih depth active hd hc hdepth
  | down hdown hn hl _ ih =>
    rw [stripped_cons (parent_of_get? hn).2.1 hdown.ne_dot, expand_down hdown hn hl]
    exact ih depth active hd hc hdepth
  | @link inner count here name target middle rest there hdown hl ht hr iht ihr =>
    have hcost : fs.Costs (here ++ [name]) inner := ⟨here, name, target, middle, rfl, hl, ht⟩
    -- A link that is being worked out would cost more than itself here.
    have hnot : here ++ [name] ∉ active := by
      intro hm
      obtain ⟨cost, hle, hcost'⟩ := hc _ hm
      have := hcost.unique hcost'
      omega
    have hd' : ((here ++ [name]) :: active).Nodup := List.nodup_cons.2 ⟨hnot, hd⟩
    have hlinks : ∀ link ∈ (here ++ [name]) :: active,
        ∃ target, fs.get? link = some (.link target) := by
      intro link hm
      rcases List.mem_cons.1 hm with rfl | hm
      · exact ⟨target, hl⟩
      · obtain ⟨cost, -, h⟩ := hc _ hm
        obtain ⟨_, _, target', _, _, h, _⟩ := h
        exact ⟨target', h⟩
    have hlen := length_le_linkCount hd' hlinks
    rw [List.length_cons] at hlen
    obtain ⟨depth, rfl⟩ : ∃ d, depth = d + 1 := ⟨depth - 1, by omega⟩
    have hinner : fs.expand depth ((here ++ [name]) :: active) (origin target here)
        (stripped (route target)) = .settled middle := by
      refine iht depth _ hd' (fun link hm => ?_) (by rw [List.length_cons]; omega)
      rcases List.mem_cons.1 hm with rfl | hm
      · exact ⟨inner, Nat.le_refl _, hcost⟩
      · obtain ⟨cost, hle, h⟩ := hc _ hm
        exact ⟨cost, by omega, h⟩
    have htarget : fs.expand depth ((here ++ [name]) :: active) (origin target here)
        (relativeSegments target) = .settled middle := by
      rw [stripped_route] at hinner
      cases depth <;> exact expandWith_of_stripped hinner
    rw [stripped_cons (parent_of_get? hl).2.1 hdown.ne_dot, expand_link hdown hl hnot htarget]
    refine ihr (depth + 1) active hd (fun link hm => ?_) hdepth
    obtain ⟨cost, hle, h⟩ := hc _ hm
    exact ⟨cost, by omega, h⟩

/-- A path text is resolved to where a walk along it arrives. -/
theorem resolve_of_walkText {path : String}
    (h : fs.walkText followLast path (bareRoute path) = .ok (.entry there))
    (hl : ∀ target, fs.get? there ≠ some (.link target)) : fs.resolve path = .ok there := by
  obtain ⟨htext, hwalk⟩ := walkText_eq_ok_iff.1 h
  have hz : '\x00' ∉ path.toList := (checkText_eq_ok_iff.1 htext).1
  obtain ⟨count, hleads⟩ := leads_of_walk hwalk hl
  have hsettled : fs.resolution path = .settled there := by
    have := expand_of_leads hleads fs.linkCount [] (by simp) (by simp) (by simp)
    rw [stripped_bareRoute] at this
    unfold resolution
    generalize fs.linkCount = depth at this ⊢
    cases depth <;> exact expandWith_of_stripped this
  rw [resolve, if_neg hz, hsettled]

end SourceAtlas.FileSystem
