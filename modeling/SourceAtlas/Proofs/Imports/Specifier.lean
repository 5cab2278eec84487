import SourceAtlas.Imports.Specifier
import SourceAtlas.Proofs.Lists.FirstOccurrences

/-!
# Which specifiers a text names

A text names a module in one of three spellings; what they look like is said by `Spells`, without
regard to how a text is searched for them.  Main statement: what the scans for the spellings report
are places of the text where these occur, from left to right and apart from each other, and no
place is passed over where a spelling could be found, unless a match that was reported reaches
beyond it (`IsScan`, `specifiers_scan`).

Each matcher finds a spelling at the start of a text exactly if there is one
(`Spelling.match?_sound`, `Spelling.match?_complete`).  For `import … from` there may be several,
since the blanks before the gap can be taken for a part of the gap, and a gap may go on behind the
first `from`.  The matcher need not find all of them, but it finds one: among all ways to share out
the blanks it tries each, and for each of them every gap.
-/

namespace SourceAtlas

namespace Imports

open Text

/-! ## Spellings -/

/-- The three ways in which a text names a module. -/
inductive Spelling
  | importFrom
  | importBare
  | require
deriving DecidableEq, Repr

/-- The matcher that looks for a spelling at the start of a text. -/
def Spelling.match? : Spelling → List Char → Option Match
  | .importFrom => importFrom?
  | .importBare => importBare?
  | .require => require?

/-- White space only. -/
def Blanks (text : List Char) : Prop :=
  ∀ c ∈ text, isBlank c = true

/-- A specifier in quotes.  The quotes need not be of the same kind. -/
inductive Quotes : List Char → List Char → Prop
  | between {opening closing : Char} {specifier : List Char} (hopening : isQuote opening = true)
      (hne : specifier ≠ []) (hnone : ∀ c ∈ specifier, isQuote c = false)
      (hclosing : isQuote closing = true) :
      Quotes specifier (opening :: (specifier ++ [closing]))

/-- A text spells a specifier. -/
inductive Spells : Spelling → List Char → List Char → Prop
  | importFrom {specifier blanks gap between quoted : List Char} {blank : Char} (hne : blanks ≠ [])
      (hblanks : Blanks blanks) (hgap : ';' ∉ gap) (hblank : isBlank blank = true)
      (hne' : between ≠ [])
      (hbetween : Blanks between) (hquoted : Quotes specifier quoted) :
      Spells .importFrom specifier
        ("import".toList ++ (blanks ++ (gap ++ blank :: ("from".toList ++ (between ++ quoted)))))
  | importBare {specifier blanks quoted : List Char} (hne : blanks ≠ []) (hblanks : Blanks blanks)
      (hquoted : Quotes specifier quoted) :
      Spells .importBare specifier ("import".toList ++ (blanks ++ quoted))
  | require {specifier before quoted behind : List Char} (hbefore : Blanks before)
      (hquoted : Quotes specifier quoted) (hbehind : Blanks behind) :
      Spells .require specifier ("require(".toList ++ (before ++ (quoted ++ (behind ++ [')']))))

variable {spelling : Spelling} {text rest specifier quoted blanks matched front : List Char}
  {found : Match}

lemma Quotes.specifier_spec (h : Quotes specifier quoted) :
    specifier ≠ [] ∧ ∀ c ∈ specifier, isQuote c = false := by
  cases h with
  | between _ hne hnone _ => exact ⟨hne, hnone⟩

lemma Spells.specifier_spec (h : Spells spelling specifier matched) :
    specifier ≠ [] ∧ ∀ c ∈ specifier, isQuote c = false := by
  cases h with
  | importFrom _ _ _ _ _ _ hquoted => exact hquoted.specifier_spec
  | importBare _ _ hquoted => exact hquoted.specifier_spec
  | require _ hquoted _ => exact hquoted.specifier_spec

lemma Spells.ne_nil (h : Spells spelling specifier matched) : matched ≠ [] := by
  cases h <;> simp

/-! ## Words, blanks and quotes -/

lemma after?_eq_some_iff {start : List Char} :
    after? start text = some rest ↔ text = start ++ rest := by
  rw [after?]
  constructor
  · intro h
    split at h
    · rename_i hstart
      obtain ⟨behind, rfl⟩ := List.isPrefixOf_iff_prefix.1 hstart
      rw [List.drop_left] at h
      rw [Option.some.inj h]
    · cases h
  · rintro rfl
    rw [if_pos (List.isPrefixOf_iff_prefix.2 (List.prefix_append ..)), List.drop_left]

lemma blanks_takeWhile (text : List Char) : Blanks (text.takeWhile isBlank) :=
  fun c hc => List.all_eq_true.1 List.all_takeWhile c hc

lemma trimStart_append (h : Blanks blanks) (rest : List Char) :
    trimStart (blanks ++ rest) = trimStart rest := by
  rw [trimStart, List.dropWhile_append_of_pos h, trimStart]

lemma isBlank_of_isQuote {c : Char} (h : isQuote c = true) : isBlank c = false := by
  rw [isQuote, Bool.or_eq_true, beq_iff_eq, beq_iff_eq] at h
  rcases h with rfl | rfl
  · decide
  · decide

/-- A quote ends the blanks before it. -/
lemma Quotes.trimStart_append_self (h : Quotes specifier quoted) (rest : List Char) :
    trimStart (quoted ++ rest) = quoted ++ rest := by
  cases h with
  | between hopening => exact trimStart_of_not_blank (isBlank_of_isQuote hopening)

lemma quoted?_eq_some_iff :
    quoted? text = some ⟨specifier, rest⟩ ↔
      ∃ quoted, Quotes specifier quoted ∧ text = quoted ++ rest := by
  constructor
  · intro h
    cases text with
    | nil => cases h
    | cons opening text =>
      rw [quoted?] at h
      split at h
      · rename_i hopening
        dsimp only at h
        split at h
        · cases h
        rename_i closing behind hbehind
        split at h
        · cases h
        rename_i hne
        obtain ⟨rfl, rfl⟩ := Match.mk.inj (Option.some.inj h)
        have hclosing : isQuote closing = true := by
          have hhead := List.head?_dropWhile_not (fun c => !isQuote c) text
          rw [hbehind] at hhead
          simpa using hhead
        refine ⟨_, .between hopening (by simpa using hne) (fun c hc => ?_) hclosing, ?_⟩
        · simpa using List.all_eq_true.1 List.all_takeWhile c hc
        · have hsplit := List.takeWhile_append_dropWhile (p := fun c => !isQuote c) (l := text)
          rw [hbehind] at hsplit
          simpa using hsplit.symm
      · cases h
  · rintro ⟨quoted, hquoted, rfl⟩
    cases hquoted with
    | @between opening closing _ hopening hne hnone hclosing =>
      have hinner : ∀ c ∈ specifier, (!isQuote c) = true :=
        fun c hc => by rw [hnone c hc, Bool.not_false]
      have htake : (specifier ++ closing :: rest).takeWhile (fun c => !isQuote c) = specifier := by
        rw [List.takeWhile_append_of_pos hinner, List.takeWhile_cons_of_neg (by simp [hclosing]),
          List.append_nil]
      have hdrop : (specifier ++ closing :: rest).dropWhile (fun c => !isQuote c) =
          closing :: rest := by
        rw [List.dropWhile_append_of_pos hinner, List.dropWhile_cons_of_neg (by simp [hclosing])]
      rw [List.cons_append, List.append_assoc, List.singleton_append, quoted?, if_pos hopening,
        htake, hdrop]
      simp [hne]

lemma spacedQuoted?_eq_some_iff :
    spacedQuoted? text = some ⟨specifier, rest⟩ ↔
      ∃ blanks quoted, blanks ≠ [] ∧ Blanks blanks ∧ Quotes specifier quoted ∧
        text = blanks ++ (quoted ++ rest) := by
  constructor
  · intro h
    cases text with
    | nil => cases h
    | cons blank text =>
      rw [spacedQuoted?] at h
      split at h
      · rename_i hblank
        obtain ⟨quoted, hquoted, htext⟩ := quoted?_eq_some_iff.1 h
        refine ⟨blank :: text.takeWhile isBlank, quoted, by simp, ?_, hquoted, ?_⟩
        · intro c hc
          rcases List.mem_cons.1 hc with rfl | hc
          · exact hblank
          · exact blanks_takeWhile text c hc
        · rw [List.cons_append, ← htext, takeWhile_append_trimStart]
      · cases h
  · rintro ⟨blanks, quoted, hne, hblanks, hquoted, rfl⟩
    obtain ⟨blank, blanks, rfl⟩ := List.exists_cons_of_ne_nil hne
    have hmore : Blanks blanks := fun c hc => hblanks c (List.mem_cons_of_mem _ hc)
    rw [List.cons_append, spacedQuoted?, if_pos (hblanks blank (by simp)), trimStart_append hmore,
      hquoted.trimStart_append_self]
    exact quoted?_eq_some_iff.2 ⟨quoted, hquoted, rfl⟩

/-- A word, blanks and a quoted specifier. -/
lemma bind_spacedQuoted?_eq_some_iff (word : List Char) :
    (after? word text).bind spacedQuoted? = some ⟨specifier, rest⟩ ↔
      ∃ blanks quoted, blanks ≠ [] ∧ Blanks blanks ∧ Quotes specifier quoted ∧
        text = word ++ (blanks ++ (quoted ++ rest)) := by
  rw [Option.bind_eq_some_iff]
  simp only [after?_eq_some_iff, spacedQuoted?_eq_some_iff]
  constructor
  · rintro ⟨behind, rfl, blanks, quoted, hne, hblanks, hquoted, rfl⟩
    exact ⟨blanks, quoted, hne, hblanks, hquoted, rfl⟩
  · rintro ⟨blanks, quoted, hne, hblanks, hquoted, rfl⟩
    exact ⟨_, rfl, blanks, quoted, hne, hblanks, hquoted, rfl⟩

lemma require?_eq_some_iff : require? text = some ⟨specifier, rest⟩ ↔
    ∃ before quoted behind, Blanks before ∧ Quotes specifier quoted ∧ Blanks behind ∧
      text = "require(".toList ++ (before ++ (quoted ++ (behind ++ ')' :: rest))) := by
  constructor
  · intro h
    obtain ⟨inner, hinner, h⟩ := Option.bind_eq_some_iff.1 h
    obtain ⟨⟨specifier', more⟩, hfound, h⟩ := Option.bind_eq_some_iff.1 h
    obtain ⟨quoted, hquoted, hmore⟩ := quoted?_eq_some_iff.1 hfound
    dsimp only at h
    split at h
    · rename_i behind hbehind
      obtain ⟨rfl, rfl⟩ := Match.mk.inj (Option.some.inj h)
      refine ⟨inner.takeWhile isBlank, quoted, more.takeWhile isBlank, blanks_takeWhile _, hquoted,
        blanks_takeWhile _, ?_⟩
      rw [after?_eq_some_iff.1 hinner, ← hbehind, takeWhile_append_trimStart, ← hmore,
        takeWhile_append_trimStart]
    · cases h
  · rintro ⟨before, quoted, behind, hbefore, hquoted, hbehind, rfl⟩
    have hinner : quoted? (trimStart (before ++ (quoted ++ (behind ++ ')' :: rest)))) =
        some ⟨specifier, behind ++ ')' :: rest⟩ := by
      rw [trimStart_append hbefore, hquoted.trimStart_append_self]
      exact quoted?_eq_some_iff.2 ⟨quoted, hquoted, rfl⟩
    have hclose : trimStart (behind ++ ')' :: rest) = ')' :: rest := by
      rw [trimStart_append hbehind]
      exact trimStart_of_not_blank (by decide)
    rw [require?, after?_eq_some_iff.2 rfl]
    show (quoted? _).bind _ = _
    rw [hinner, Option.bind_some]
    dsimp only
    rw [hclose]
    rfl

/-! ## The gap before `from` -/

lemma gapFrom?_cons (c : Char) (text : List Char) : gapFrom? (c :: text) =
    (if isBlank c = true then fromQuoted? text else none).or
      (if c = ';' then none else gapFrom? text) := by
  rw [gapFrom?.eq_def]
  dsimp only
  split
  · rename_i hfound
    rw [hfound, Option.some_or]
  · rename_i hnone
    rw [hnone, Option.none_or]

lemma gapFrom?_sound (h : gapFrom? text = some found) :
    ∃ gap blank behind, ';' ∉ gap ∧ isBlank blank = true ∧ fromQuoted? behind = some found ∧
      text = gap ++ blank :: behind := by
  induction text with
  | nil => cases h
  | cons c text ih =>
    rw [gapFrom?_cons, Option.or_eq_some_iff] at h
    rcases h with hfound | ⟨-, hlater⟩
    · split at hfound
      · rename_i hblank
        exact ⟨[], c, text, List.not_mem_nil, hblank, hfound, rfl⟩
      · cases hfound
    · split at hlater
      · cases hlater
      · rename_i hc
        obtain ⟨gap, blank, behind, hgap, hblank, hfrom, rfl⟩ := ih hlater
        refine ⟨c :: gap, blank, behind, ?_, hblank, hfrom, rfl⟩
        rw [List.mem_cons, not_or]
        exact ⟨Ne.symm hc, hgap⟩

lemma gapFrom?_complete {gap behind : List Char} {blank : Char} (hgap : ';' ∉ gap)
    (hblank : isBlank blank = true) (hfrom : fromQuoted? behind = some found) :
    ∃ found, gapFrom? (gap ++ blank :: behind) = some found := by
  induction gap with
  | nil =>
    refine ⟨found, ?_⟩
    rw [List.nil_append, gapFrom?_cons, if_pos hblank, hfrom, Option.some_or]
  | cons c gap ih =>
    obtain ⟨hc, hgap⟩ := not_or.1 fun hm => hgap (List.mem_cons.2 hm)
    obtain ⟨later, hlater⟩ := ih hgap
    rw [List.cons_append, gapFrom?_cons, if_neg (Ne.symm hc), hlater, ← Option.isSome_iff_exists,
      Option.isSome_or]
    exact Bool.or_true _

/-- What is found is found behind some of the blanks that could be given back. -/
lemma backtrack?_sound {given : List Char} (h : backtrack? given text = some found) :
    ∃ back kept, given = back ++ kept ∧ gapFrom? (back.reverse ++ text) = some found := by
  induction given generalizing text with
  | nil =>
    rw [backtrack?] at h
    split at h
    · rename_i hfound
      exact ⟨[], [], rfl, hfound.trans h⟩
    · cases h
  | cons blank given ih =>
    rw [backtrack?] at h
    split at h
    · rename_i hfound
      exact ⟨[], blank :: given, rfl, hfound.trans h⟩
    · obtain ⟨back, kept, rfl, hgap⟩ := ih h
      refine ⟨blank :: back, kept, rfl, ?_⟩
      rw [List.reverse_cons, List.append_assoc]
      exact hgap

lemma backtrack?_complete {back kept : List Char}
    (h : gapFrom? (back.reverse ++ text) = some found) :
    ∃ found, backtrack? (back ++ kept) text = some found := by
  induction back generalizing text with
  | nil =>
    refine ⟨found, ?_⟩
    rw [List.reverse_nil, List.nil_append] at h
    rw [List.nil_append, backtrack?.eq_def, h]
  | cons blank back ih =>
    rw [List.reverse_cons, List.append_assoc] at h
    rw [List.cons_append, backtrack?]
    split
    · exact ⟨_, rfl⟩
    · exact ih h

/-- The first blank stays, and those that are given back are the first ones of the gap. -/
lemma importFrom?_sound (h : importFrom? text = some found) :
    ∃ matched, Spells .importFrom found.specifier matched ∧ text = matched ++ found.rest := by
  rw [importFrom?] at h
  split at h
  · cases h
  rename_i behind hbehind
  rcases List.eq_nil_or_concat (behind.takeWhile isBlank).reverse with hnil | ⟨given, first, hgiven⟩
  · rw [hnil] at h
    cases h
  rw [hgiven, List.concat_eq_append] at h
  split at h
  · cases h
  rw [List.dropLast_concat] at h
  obtain ⟨back, kept, rfl, hgap⟩ := backtrack?_sound h
  obtain ⟨gap, blank, more, hnone, hblank, hfrom, hmore⟩ := gapFrom?_sound hgap
  obtain ⟨between, quoted, hne', hbetween, hquoted, rfl⟩ :=
    (bind_spacedQuoted?_eq_some_iff _).1 hfrom
  have htake : behind.takeWhile isBlank = (first :: kept.reverse) ++ back.reverse := by
    rw [← List.reverse_inj, hgiven]
    simp
  have hblanks : Blanks (first :: kept.reverse) := by
    intro c hc
    refine blanks_takeWhile behind c ?_
    rw [htake]
    exact List.mem_append_left _ hc
  have htext : behind = (first :: kept.reverse) ++ (back.reverse ++ trimStart behind) := by
    rw [← List.append_assoc, ← htake, takeWhile_append_trimStart]
  rw [hmore] at htext
  refine ⟨_, .importFrom (by simp) hblanks hnone hblank hne' hbetween hquoted, ?_⟩
  rw [after?_eq_some_iff.1 hbehind, htext]
  simp only [List.append_assoc, List.cons_append]

lemma importFrom?_complete {gap behind : List Char} {blank : Char} (hne : blanks ≠ [])
    (hblanks : Blanks blanks) (hgap : ';' ∉ gap) (hblank : isBlank blank = true)
    (hfrom : fromQuoted? behind = some found) :
    ∃ found, importFrom? ("import".toList ++ (blanks ++ (gap ++ blank :: behind))) =
      some found := by
  obtain ⟨first, blanks, rfl⟩ := List.exists_cons_of_ne_nil hne
  -- All blanks are taken first, also those of the gap; these are given back.
  have htake : (first :: blanks ++ (gap ++ blank :: behind)).takeWhile isBlank =
      first :: (blanks ++ (gap ++ blank :: behind).takeWhile isBlank) := by
    rw [List.takeWhile_append_of_pos hblanks, List.cons_append]
  have hdrop : (first :: (blanks ++ (gap ++ blank :: behind).takeWhile isBlank)).reverse.dropLast =
      ((gap ++ blank :: behind).takeWhile isBlank).reverse ++ blanks.reverse := by
    rw [List.reverse_cons, List.dropLast_concat, List.reverse_append]
  obtain ⟨found', hfound⟩ := gapFrom?_complete hgap hblank hfrom
  rw [← takeWhile_append_trimStart (gap ++ blank :: behind),
    ← List.reverse_reverse ((gap ++ blank :: behind).takeWhile isBlank)] at hfound
  rw [importFrom?, after?_eq_some_iff.2 rfl]
  dsimp only
  rw [htake, trimStart_append hblanks]
  split
  · rename_i hnil
    simp at hnil
  · rw [hdrop]
    exact backtrack?_complete hfound

/-! ## One match -/

/-- What a matcher finds is there. -/
theorem Spelling.match?_sound (h : spelling.match? text = some found) :
    ∃ matched, Spells spelling found.specifier matched ∧ text = matched ++ found.rest := by
  cases spelling with
  | importFrom => exact importFrom?_sound h
  | importBare =>
    obtain ⟨blanks, quoted, hne, hblanks, hquoted, rfl⟩ := (bind_spacedQuoted?_eq_some_iff _).1 h
    exact ⟨_, .importBare hne hblanks hquoted, by simp only [List.append_assoc]⟩
  | require =>
    obtain ⟨before, quoted, behind, hbefore, hquoted, hbehind, rfl⟩ := require?_eq_some_iff.1 h
    exact ⟨_, .require hbefore hquoted hbehind,
      by simp only [List.append_assoc, List.singleton_append]⟩

/-- Where a spelling is, its matcher finds one. -/
theorem Spelling.match?_complete (h : Spells spelling specifier matched) (rest : List Char) :
    ∃ found, spelling.match? (matched ++ rest) = some found := by
  cases h with
  | importFrom hne hblanks hgap hblank hne' hbetween hquoted =>
    have hfrom : fromQuoted? _ = some ⟨specifier, rest⟩ :=
      (bind_spacedQuoted?_eq_some_iff "from".toList).2 ⟨_, _, hne', hbetween, hquoted, rfl⟩
    have hfound := importFrom?_complete hne hblanks hgap hblank hfrom
    simpa only [Spelling.match?, List.append_assoc, List.cons_append] using hfound
  | importBare hne hblanks hquoted =>
    refine ⟨⟨specifier, rest⟩, ?_⟩
    rw [Spelling.match?, importBare?, bind_spacedQuoted?_eq_some_iff]
    exact ⟨_, _, hne, hblanks, hquoted, by simp only [List.append_assoc]⟩
  | require hbefore hquoted hbehind =>
    refine ⟨⟨specifier, rest⟩, ?_⟩
    rw [Spelling.match?, require?_eq_some_iff]
    exact ⟨_, _, _, hbefore, hquoted, hbehind,
      by simp only [List.append_assoc, List.singleton_append]⟩

/-! ## All matches -/

/-- A place of a text, from its first character to the one behind its last, where a specifier
is spelled. -/
structure Occurrence where
  start : Nat
  stop : Nat
  specifier : List Char

namespace Occurrence

/-- The same place, with more text before it. -/
def shift (count : Nat) (occurrence : Occurrence) : Occurrence :=
  { occurrence with start := count + occurrence.start, stop := count + occurrence.stop }

/-- A spelling occurs at a place of a text. -/
def In (occurrence : Occurrence) (spelling : Spelling) (text : List Char) : Prop :=
  ∃ before matched behind, text = before ++ (matched ++ behind) ∧
    before.length = occurrence.start ∧ (before ++ matched).length = occurrence.stop ∧
    Spells spelling occurrence.specifier matched

/-- A place covers another one if it starts there, or starts before it and ends behind it. -/
def Covers (reported occurrence : Occurrence) : Prop :=
  reported.start = occurrence.start ∨
    reported.start < occurrence.start ∧ occurrence.start < reported.stop

variable {occurrence reported : Occurrence}

lemma In.shift (h : occurrence.In spelling text) (front : List Char) :
    (occurrence.shift front.length).In spelling (front ++ text) := by
  obtain ⟨before, matched, behind, rfl, hstart, hstop, hspells⟩ := h
  refine ⟨front ++ before, matched, behind, by rw [List.append_assoc], ?_, ?_, hspells⟩
  · rw [List.length_append, hstart, Occurrence.shift]
  · rw [List.append_assoc, List.length_append, hstop, Occurrence.shift]

/-- What starts behind the front of a text occurs in the rest. -/
lemma In.exists_of_le (h : occurrence.In spelling (front ++ text))
    (hle : front.length ≤ occurrence.start) :
    ∃ inner : Occurrence, inner.In spelling text ∧ inner.shift front.length = occurrence := by
  obtain ⟨before, matched, behind, htext, hstart, hstop, hspells⟩ := h
  have hprefix : front <+: before := by
    refine List.prefix_of_prefix_length_le (List.prefix_append front text) ?_ (hstart ▸ hle)
    rw [htext]
    exact List.prefix_append ..
  obtain ⟨before, rfl⟩ := hprefix
  rw [List.append_assoc] at htext hstop
  refine ⟨⟨before.length, (before ++ matched).length, occurrence.specifier⟩,
    ⟨before, matched, behind, List.append_cancel_left htext, rfl, rfl, hspells⟩, ?_⟩
  rw [Occurrence.shift, ← List.length_append, ← List.length_append, hstart, hstop]

end Occurrence

/-- A report of where a spelling occurs in a text, from left to right: the places are apart from
each other, and each place where the spelling occurs is covered by one of them. -/
structure IsScan (spelling : Spelling) (text : List Char) (reported : List Occurrence) : Prop where
  occurs : ∀ occurrence ∈ reported, occurrence.In spelling text
  apart : reported.Pairwise fun first second => first.stop ≤ second.start
  covers : ∀ occurrence : Occurrence, occurrence.In spelling text →
    ∃ first ∈ reported, first.Covers occurrence

/-- A report on the rest of a text, and one on what starts in the front of it. -/
lemma IsScan.append {head reported : List Occurrence} (h : IsScan spelling text reported)
    (hoccurs : ∀ occurrence ∈ head,
      occurrence.In spelling (front ++ text) ∧ occurrence.stop ≤ front.length)
    (hapart : head.Pairwise fun first second => first.stop ≤ second.start)
    (hcovers : ∀ occurrence : Occurrence, occurrence.In spelling (front ++ text) →
      occurrence.start < front.length → ∃ first ∈ head, first.Covers occurrence) :
    IsScan spelling (front ++ text) (head ++ reported.map (Occurrence.shift front.length)) := by
  constructor
  case occurs =>
    intro occurrence hm
    rcases List.mem_append.1 hm with hm | hm
    · exact (hoccurs occurrence hm).1
    · obtain ⟨inner, hinner, rfl⟩ := List.mem_map.1 hm
      exact (h.occurs inner hinner).shift front
  case apart =>
    rw [List.pairwise_append, List.pairwise_map]
    refine ⟨hapart, h.apart.imp fun hle => Nat.add_le_add_left hle _, ?_⟩
    intro first hfirst second hsecond
    obtain ⟨inner, -, rfl⟩ := List.mem_map.1 hsecond
    exact Nat.le_trans (hoccurs first hfirst).2 (Nat.le_add_right _ _)
  case covers =>
    intro occurrence ho
    rcases Nat.lt_or_ge occurrence.start front.length with hlt | hge
    · obtain ⟨first, hm, hc⟩ := hcovers occurrence ho hlt
      exact ⟨first, List.mem_append_left _ hm, hc⟩
    · obtain ⟨inner, hinner, rfl⟩ := ho.exists_of_le hge
      obtain ⟨first, hm, hc⟩ := h.covers inner hinner
      refine ⟨first.shift front.length, List.mem_append_right _ (List.mem_map_of_mem hm), ?_⟩
      unfold Occurrence.Covers Occurrence.shift at *
      dsimp only
      omega

lemma isScan_nil (spelling : Spelling) : IsScan spelling [] [] := by
  refine ⟨by simp, .nil, ?_⟩
  rintro occurrence ⟨before, matched, behind, htext, -, -, hspells⟩
  exact absurd (by simpa using htext.symm) fun h : before = [] ∧ matched = [] ∧ behind = [] =>
    hspells.ne_nil h.2.1

/-- Where nothing is found at the start of a text, nothing occurs there. -/
lemma start_pos_of_match?_eq_none {occurrence : Occurrence} (h : spelling.match? text = none)
    (ho : occurrence.In spelling text) : 0 < occurrence.start := by
  obtain ⟨before, matched, behind, rfl, hstart, -, hspells⟩ := ho
  rw [← hstart, List.length_pos_iff]
  rintro rfl
  obtain ⟨found, hfound⟩ := Spelling.match?_complete hspells behind
  rw [List.nil_append, hfound] at h
  cases h

/-- A scan that has fuel for each character of a text reports where the spelling occurs. -/
theorem scanWith_isScan {fuel : Nat} (h : text.length ≤ fuel) :
    ∃ reported, IsScan spelling text reported ∧
      scanWith spelling.match? fuel text = reported.map Occurrence.specifier := by
  induction fuel generalizing text with
  | zero =>
    obtain rfl := List.length_eq_zero_iff.1 (Nat.le_zero.1 h)
    exact ⟨[], isScan_nil spelling, rfl⟩
  | succ fuel ih =>
    cases text with
    | nil => exact ⟨[], isScan_nil spelling, rfl⟩
    | cons c text =>
      rw [scanWith]
      cases hmatch : spelling.match? (c :: text) with
      | none =>
        -- The scan goes on behind the first character, where nothing occurs.
        obtain ⟨reported, hscan, hrun⟩ := ih (Nat.le_of_succ_le_succ h)
        refine ⟨_, @IsScan.append _ _ [c] [] _ hscan (by simp) .nil ?_, ?_⟩
        · intro occurrence ho hlt
          exact absurd (start_pos_of_match?_eq_none hmatch ho)
            (Nat.not_lt.2 (Nat.le_of_lt_succ hlt))
        · rw [List.nil_append, List.map_map]
          exact hrun
      | some found =>
        -- The scan goes on behind the match, which covers what occurs inside it.
        obtain ⟨matched, hspells, htext⟩ := Spelling.match?_sound hmatch
        have hpos : 0 < matched.length := List.length_pos_of_ne_nil hspells.ne_nil
        have hshorter : found.rest.length ≤ fuel := by
          rw [htext, List.length_append] at h
          omega
        obtain ⟨reported, hscan, hrun⟩ := ih hshorter
        rw [htext]
        refine ⟨_, @IsScan.append _ _ matched [⟨0, matched.length, found.specifier⟩] _ hscan ?_
          (List.pairwise_singleton ..) ?_, ?_⟩
        · intro occurrence hm
          obtain rfl := List.mem_singleton.1 hm
          exact ⟨⟨[], matched, found.rest, rfl, rfl, rfl, hspells⟩, Nat.le_refl _⟩
        · intro occurrence _ hlt
          refine ⟨_, List.mem_singleton_self _, ?_⟩
          rcases Nat.eq_zero_or_pos occurrence.start with hzero | hstart
          · exact .inl hzero.symm
          · exact .inr ⟨hstart, hlt⟩
        · rw [List.singleton_append, List.map_cons, List.map_map]
          exact congrArg _ hrun

/-- The specifiers of a text are those of the places where a spelling occurs in it: first all that
are imported `from` a module, then the bare imports, then the requires, each from left to right and
each specifier where it occurs first.  The places of one spelling lie apart, and they cover every
place where it occurs. -/
theorem specifiers_scan (text : List Char) :
    ∃ reported : Spelling → List Occurrence,
      (∀ spelling, IsScan spelling text (reported spelling)) ∧
      specifiers text = (([.importFrom, .importBare, .require].flatMap reported).map
        fun occurrence => String.ofList occurrence.specifier).eraseDups ∧
      (specifiers text).Nodup ∧
      ∀ specifier ∈ specifiers text, specifier ≠ "" ∧ (∀ c ∈ specifier.toList, isQuote c = false) ∧
        ∃ spelling before matched behind, text = before ++ (matched ++ behind) ∧
          Spells spelling specifier.toList matched := by
  have hscan (spelling : Spelling) : ∃ reported, IsScan spelling text reported ∧
      matchesOf spelling.match? text = reported.map Occurrence.specifier :=
    scanWith_isScan (Nat.le_refl _)
  choose reported hreported hrun using hscan
  have hspecifiers : specifiers text = (([.importFrom, .importBare, .require].flatMap reported).map
      fun occurrence => String.ofList occurrence.specifier).eraseDups := by
    have hfrom : matchesOf importFrom? text = _ := hrun .importFrom
    have hbare : matchesOf importBare? text = _ := hrun .importBare
    have hrequire : matchesOf require? text = _ := hrun .require
    rw [specifiers, hfrom, hbare, hrequire]
    simp [Function.comp_def]
  refine ⟨reported, hreported, hspecifiers, ?_, ?_⟩
  · rw [specifiers]
    exact nodup_eraseDups _
  · intro specifier hm
    rw [hspecifiers, List.mem_eraseDups, List.mem_map] at hm
    obtain ⟨occurrence, ho, rfl⟩ := hm
    obtain ⟨spelling, -, ho⟩ := List.mem_flatMap.1 ho
    obtain ⟨before, matched, behind, htext, -, -, hspells⟩ :=
      (hreported spelling).occurs occurrence ho
    rw [String.toList_ofList]
    exact ⟨by simpa using hspells.specifier_spec.1, hspells.specifier_spec.2, spelling, before,
      matched, behind, htext, hspells⟩

/-- Of two blanks one begins the gap, which may be empty, and the quotes around a specifier
may differ. -/
example : specifiers "import  from \"./x'; require( './y' )".toList =
    ["./x", "./y"] := by decide +kernel

end Imports

end SourceAtlas
