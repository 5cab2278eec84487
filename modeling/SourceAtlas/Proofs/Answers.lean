import SourceAtlas.Proofs.CommandLine.Answers
import SourceAtlas.Proofs.Project.Agreement
import SourceAtlas.Proofs.Service.Answers
import SourceAtlas.Proofs.Service.Runs

/-!
# What becomes of a bad archive

Whoever hands in an archive is told that it is unsafe, too large or unreadable, and nothing else
goes wrong: the analysis fails only with such an error, the service answers an upload with 200, 400
or 413, and the command line ends with 0 or 1 and with a report (`regular_archive_answers`).

This holds of regular archives only (`RegularArchive`).  With a name in it that claims to be UTF-8
and is not, an archive is answered with 500 (`upload_undecodable`, `undecodableArchive_answered`).
-/

namespace SourceAtlas

open FileSystem SourceAtlas.Action CommandLine

/-- An archive whose only member is not what its check sum says. -/
def corruptArchive : ByteArray := detourArchive.set! 39 50

lemma read_corruptArchive : Directory.read corruptArchive = .ok [detourMember] := by
  decide +kernel

lemma regular_corruptArchive {top : Location}
    (h : (Location.toPath (top ++ ["a.js"])).utf8ByteSize ≤ maxPathBytes) :
    RegularArchive .absent corruptArchive top := by
  have hname : detourMember.member.name ≠ "" := by decide +kernel
  have hentry : (ArchiveEntry.ofMember .absent corruptArchive detourMember).names? = some ["a.js"] ∧
      (ArchiveEntry.ofMember .absent corruptArchive detourMember).isDirectory = false := by
    decide +kernel
  obtain ⟨hnames, hfile⟩ := hentry
  have hregular : detourMember.Regular .absent corruptArchive := by
    refine ⟨⟨by decide, by decide, .inr (by decide)⟩, ?_, fun stream => ?_⟩
    · have hopens : (detourMember.read .absent corruptArchive).toOption.isSome = true := by
        decide +kernel
      intro fault hfails
      rw [hfails] at hopens
      cases hopens
    · exact PlacedMember.failure_ne_undecoded (by decide) (by decide)
  have hmembers {members : List PlacedMember}
      (hread : Directory.read corruptArchive = .ok members) : members = [detourMember] :=
    Except.ok.inj (hread.symm.trans read_corruptArchive)
  have hfiles : memberFiles .absent corruptArchive [detourMember] =
      [ArchiveEntry.ofMember .absent corruptArchive detourMember] := by
    simp [memberFiles, hfile]
  constructor
  case decodable =>
    intro fault hread
    rw [read_corruptArchive] at hread
    cases hread
  case named =>
    intro members hread placed hm
    rw [hmembers hread, List.mem_singleton] at hm
    exact hm ▸ hname
  case members =>
    intro members hread placed hm _
    rw [hmembers hread, List.mem_singleton] at hm
    exact hm ▸ hregular
  case placeable =>
    intro members hread
    rw [hmembers hread, hfiles]
    constructor
    case short =>
      intro entry he names hn name hm
      obtain rfl := List.mem_singleton.1 he
      obtain rfl := Option.some.inj (hnames.symm.trans hn)
      obtain rfl := List.mem_singleton.1 hm
      decide
    case fits =>
      intro entry he names hn
      obtain rfl := List.mem_singleton.1 he
      obtain rfl := Option.some.inj (hnames.symm.trans hn)
      exact h
    case apart =>
      intro entry he other ho names names' hn hn' _
      obtain rfl := List.mem_singleton.1 he
      obtain rfl := List.mem_singleton.1 ho
      exact Option.some.inj (hn.symm.trans hn')

/-- The archive, a directory to extract it in, and one for temporary directories. -/
def corruptStart : FileSystem :=
  (FileSystem.empty [] ⟨0⟩).insert ["e"] .directory |>.insert ["a.zip"] (.file corruptArchive)
    |>.insert ["tmp"] .directory

/-- What the service stores the upload of an archive under. -/
def storedArchive : String := "0-" ++ plainService.identifier 0 ++ "-a.zip"

lemma ready_plainService : plainService.Ready ⟨0⟩ "a.zip" storedArchive (.empty [] ⟨0⟩)
    ((prepareDirectories plainService.config).on (.empty [] ⟨0⟩)).2 ["u"] ["e"] := by
  refine ⟨Prod.ext (by decide +kernel) rfl, by decide +kernel,
    .append (leadsTo_iff_locate.2 ?_) ?_ ?_ ?_, .append (leadsTo_iff_locate.2 ?_) ?_ ?_ ?_⟩
  all_goals decide +kernel

/-- An archive with a name that is marked as UTF-8 and starts with a byte that no such text
holds. -/
def undecodableArchive : ByteArray :=
  ⟨#[80, 75, 3, 4, 20, 0, 0, 8, 0, 0, 0, 0, 33, 0, 131, 22, 220, 140, 1, 0, 0, 0, 1, 0, 0, 0, 5, 0,
    0, 0, 255, 255, 46, 106, 115, 120, 80, 75, 1, 2, 20, 3, 20, 0, 0, 8, 0, 0, 0, 0, 33, 0, 131, 22,
    220, 140, 1, 0, 0, 0, 1, 0, 0, 0, 5, 0, 0, 0, 0, 0, 0, 0, 0, 0, 0, 0, 128, 1, 0, 0, 0, 0, 255,
    255, 46, 106, 115, 80, 75, 5, 6, 0, 0, 0, 0, 1, 0, 1, 0, 51, 0, 0, 0, 36, 0, 0, 0, 0, 0]⟩

/-- The archive is answered like a fault of the service. -/
theorem undecodableArchive_answered :
    (plainService.upload ⟨0⟩ (some ⟨some "a.zip", undecodableArchive⟩) (.empty [] ⟨0⟩)).1.status =
      500 := by
  have hread : Directory.read undecodableArchive =
      .error (.undecodable ⟨0, [255], .invalidStart⟩) := by
    decide +kernel
  have hsize : (undecodableArchive.size : Int) ≤ plainService.config.maxUploadBytes := by
    decide +kernel
  have haccept : Submission.accept (some ⟨some "a.zip", undecodableArchive⟩) =
      .ok ⟨"a.zip", ".zip", undecodableArchive⟩ := rfl
  exact upload_undecodable haccept rfl hsize ready_plainService hread

end SourceAtlas
