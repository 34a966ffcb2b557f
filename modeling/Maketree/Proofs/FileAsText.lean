import Mathlib
import Maketree.Proofs.EncodedText
import Maketree.Proofs.Outcomes
/-! A makefile read from its file ends as the same makefile given as text. -/
namespace Maketree.Makefile

open Journal

theorem absoluteNormal (cwd : String) {p : String} (absolute : Path.isAbsolute p = true)
    (normal : Path.normalize p = p) : Path.absolute cwd p = p := by
  rw [Path.absolute, if_pos absolute, normal]

theorem parseFileOfText (files : FileSystem) (text p : String) (workDir : Option String)
    (absolute : Path.isAbsolute p = true) (normal : Path.normalize p = p)
    (holds : files.read p = .ok text.toUTF8.data.toList) (lone : Source.NoLoneReturn text.toList) :
    parseFile files p workDir = (do note (.openedFile p); parseText files text p workDir) := by
  unfold parseFile parseText LineStream.openFile LineStream.ofText
  rw [absoluteNormal files.cwd absolute normal]
  simp only [LineStream.push, LineStream.empty, holds, Source.ofBytesText text lone, bind_assoc, pure_bind]

theorem fileReadsAsText (files : FileSystem) (text p : String) (workDir : Option String)
    (absolute : Path.isAbsolute p = true) (normal : Path.normalize p = p)
    (holds : files.read p = .ok text.toUTF8.data.toList) (lone : Source.NoLoneReturn text.toList) :
    ∃ res, Gives (parseFile files p workDir) res ∧ Gives (parseText files text p workDir) res := by
  obtain ⟨res, gives⟩ := parseTextDecided files text p workDir
  refine ⟨res, ?_, gives⟩
  rw [parseFileOfText files text p workDir absolute normal holds lone]
  exact givesBind (givesNote _) gives

set_option maxRecDepth 8192 in
theorem crlfFileReadsAsText :
    Path.isAbsolute "/w/Makefile" = true ∧ Path.normalize "/w/Makefile" = "/w/Makefile" ∧
      FileSystem.read ⟨"/w", ["/w"], [("/w/Makefile", "all: b\r\n\techo a\r\n".toUTF8.data.toList)]⟩
        "/w/Makefile" = .ok "all: b\r\n\techo a\r\n".toUTF8.data.toList ∧
      Source.NoLoneReturn "all: b\r\n\techo a\r\n".toList ∧
      ∃ res, Gives (parseFile ⟨"/w", ["/w"], [("/w/Makefile", "all: b\r\n\techo a\r\n".toUTF8.data.toList)]⟩
          "/w/Makefile" none) res ∧
        Gives (parseText ⟨"/w", ["/w"], [("/w/Makefile", "all: b\r\n\techo a\r\n".toUTF8.data.toList)]⟩
          "all: b\r\n\techo a\r\n" "/w/Makefile" none) res := by
  have absolute : Path.isAbsolute "/w/Makefile" = true := by decide
  have normal : Path.normalize "/w/Makefile" = "/w/Makefile" := by decide
  have holds : FileSystem.read ⟨"/w", ["/w"], [("/w/Makefile", "all: b\r\n\techo a\r\n".toUTF8.data.toList)]⟩
      "/w/Makefile" = .ok "all: b\r\n\techo a\r\n".toUTF8.data.toList := by decide
  have lone : Source.NoLoneReturn "all: b\r\n\techo a\r\n".toList := by decide
  exact ⟨absolute, normal, holds, lone, fileReadsAsText _ _ _ none absolute normal holds lone⟩


theorem stopsOfMap {α : Type} {res : Except Halt α} {h : Halt} (stops : res.map (fun _ => ()) = .error h) :
    res = .error h := by
  cases res with
  | error e => simpa [Except.map] using stops
  | ok a => cases stops

set_option maxRecDepth 8192 in
theorem nulIncludeStopsFileAndText :
    ((ExceptT.run (parseFile ⟨"/w", ["/w"], [("/w/Makefile", "include a\x00b\n".toUTF8.data.toList),
      ("/w/a", "A = 1\n".toUTF8.data.toList)]⟩ "/w/Makefile" none)).run []).1 =
        .error (.unhandled "/w/a\x00b" .nulInPath) ∧
    ((ExceptT.run (parseText ⟨"/w", ["/w"], [("/w/Makefile", "include a\x00b\n".toUTF8.data.toList),
      ("/w/a", "A = 1\n".toUTF8.data.toList)]⟩ "include a\x00b\n" "/w/Makefile" none)).run []).1 =
        .error (.unhandled "/w/a\x00b" .nulInPath) :=
  ⟨stopsOfMap (by with_unfolding_all decide), stopsOfMap (by decide +kernel)⟩

end Maketree.Makefile
