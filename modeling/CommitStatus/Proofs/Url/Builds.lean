import CommitStatus.Proofs.Decimal.Integer
import CommitStatus.Proofs.Url.Joining

/-!
# Which builds share a URL

The URL of a build that brings none along is the root URL, and the path of the build behind it (`exists_ofBuild`).
Slashes at the end of the root, and around the job's URL, do not count. The path tells the job's URL and the number
apart, since a number holds no slash (`runPath_eq_iff`). So builds share a URL just if their jobs' URLs are the same but
for slashes around them, and their numbers are the same (`ofBuild_eq_iff`).
-/

namespace CommitStatus.Url

open Text

/-! ## Paths of builds -/

/-- The path of a build, behind the slash at its front. -/
def runPath (b : Build) : List Char := trimBy (· == '/') b.job.url.toList ++ '/' :: (b.numberText.toList ++ ['/'])

/-- The path of a build tells the job's URL, but for slashes around it, and the number. -/
theorem runPath_eq_iff {b b' : Build} :
    runPath b = runPath b' ↔
      trimBy (· == '/') b.job.url.toList = trimBy (· == '/') b'.job.url.toList ∧ b.number = b'.number := by
  have hpath : ∀ b : Build, runPath b =
      (trimBy (· == '/') b.job.url.toList ++ '/' :: Decimal.Integer.text b.number) ++ ['/'] := by
    intro b
    simp [runPath, Build.numberText]
  rw [hpath, hpath, List.append_cancel_right_eq, Decimal.Integer.append_cons_text_inj (by decide) (by decide)]

/-- Under roots that are the same but for slashes at the end, the path of a build decides on its URL. -/
theorem ofBuild_eq_iff_runPath {root root' : String} {b b' : Build} (hroot : root ≠ "") (hroot' : root' ≠ "")
    (hsame : SameBefore root root') (hb : b.url = none) (hb' : b'.url = none) :
    ofBuild (some root) b = ofBuild (some root') b' ↔ runPath b = runPath b' := by
  obtain ⟨url, hof, htext⟩ := exists_ofBuild hroot hb
  obtain ⟨url', hof', htext'⟩ := exists_ofBuild hroot' hb'
  rw [hof, hof', Except.ok.injEq, ← String.toList_inj, htext, htext', hsame.trimRightBy_eq,
    List.append_cancel_left_eq, List.cons.injEq, and_iff_right rfl]
  rfl

/-- **Which builds share a URL.** Take any root URL that holds more than slashes, and builds that bring no URL of their
own along.

- Each build has a URL. It stays the same with more or fewer slashes at the end of the root, and with more or fewer in
  front and at the end of the job's URL; of the build, nothing but this and the number counts.
- Two builds have the same URL just if their jobs' URLs are the same without the slashes in front and at the end, and
  their numbers are the same. -/
theorem ofBuild_eq_iff {root : String} {c : Char} (hc : c ∈ root.toList) (hne : c ≠ '/') :
    (∀ b : Build, b.url = none → ∃ url, ofBuild (some root) b = .ok url ∧
      ∀ (root' : String) (b' : Build), SameBefore root root' → b'.url = none → SameWithin b.job.url b'.job.url →
        b'.number = b.number → ofBuild (some root') b' = .ok url) ∧
    ∀ b b' : Build, b.url = none → b'.url = none →
      (ofBuild (some root) b = ofBuild (some root) b' ↔
        trimBy (· == '/') b.job.url.toList = trimBy (· == '/') b'.job.url.toList ∧ b.number = b'.number) := by
  have hself : SameBefore root root := ⟨root.toList, 0, 0, by simp [slashes], by simp [slashes]⟩
  have hroot : root ≠ "" := hself.ne_empty hc hne
  constructor
  · intro b hb
    obtain ⟨url, hof, -⟩ := exists_ofBuild hroot hb
    refine ⟨url, hof, fun root' b' hroots hb' hjob hnumber => ?_⟩
    have hpath : runPath b = runPath b' := runPath_eq_iff.2 ⟨hjob.trimBy_eq, hnumber.symm⟩
    rw [← (ofBuild_eq_iff_runPath hroot (hroots.ne_empty hc hne) hroots hb hb').2 hpath, hof]
  · intro b b' hb hb'
    rw [ofBuild_eq_iff_runPath hroot hroot hself hb hb', runPath_eq_iff]

/-- A root and a job's URL with slashes and without, and two builds whose paths hold the same digits. -/
theorem ofBuild_eq_iff_digits :
    let build (job : String) (number : Int) : Build := ⟨number, "app", none, none, ⟨"app", job, ⟨""⟩⟩, none, none⟩
    'h' ∈ "https://ci.example.com//".toList ∧ 'h' ≠ '/' ∧
      (∃ url, ofBuild (some "https://ci.example.com//") (build "/job/app-1/2//" (-3)) = .ok url ∧
        ofBuild (some "https://ci.example.com") (build "job/app-1/2" (-3)) = .ok url) ∧
      ofBuild (some "https://ci.example.com//") (build "job/app" 12) ≠
        ofBuild (some "https://ci.example.com//") (build "job/app/1" 2) := by
  intro build
  have hmem : 'h' ∈ "https://ci.example.com//".toList := by decide
  have hne : 'h' ≠ '/' := by decide
  obtain ⟨hsame, hdistinct⟩ := ofBuild_eq_iff hmem hne
  refine ⟨hmem, hne, ?_, ?_⟩
  · obtain ⟨url, hof, hothers⟩ := hsame (build "/job/app-1/2//" (-3)) rfl
    exact ⟨url, hof, hothers _ _ ⟨"https://ci.example.com".toList, 2, 0, by decide, by decide⟩ rfl
      ⟨"job/app-1/2".toList, 1, 2, 0, 0, by decide, by decide⟩ rfl⟩
  · intro h
    have hnumber : (12 : Int) = 2 := ((hdistinct (build "job/app" 12) (build "job/app/1" 2) rfl rfl).1 h).2
    cases hnumber

end CommitStatus.Url
