import CssTypings.Proofs.Pipeline.Batch
import CssTypings.Proofs.Tree.Contents
import Mathlib.Data.List.Forall2

/-!
# Conversions in copies

A copy of a workspace has the same files with the same contents, but the times of its writes and the
numbers of its scratch files are its own (`Copies`). A conversion cannot tell the difference: what
it compiles are contents (`Compiler.render_of_look`), and so a verdict reads contents and no times
(`verdict_sameContents`). Scratch numbers only show in error texts.
-/

namespace CssTypings

open CssTypings.Tree (SameContents)

variable {tree tree' : Tree}

/-- What is compiled does not depend on anything but the contents of the source. -/
theorem Compiler.render_of_look {source : Path}
    (hlook : (tree'.look source).map (Option.map Entry.contents) =
      (tree.look source).map (Option.map Entry.contents)) (compiler : Compiler) :
    compiler.render tree' source = compiler.render tree source := by
  rw [render, render]
  cases hfound : tree.look source with
  | error fault =>
    rw [hfound] at hlook
    cases hfound' : tree'.look source with
    | error fault' =>
      rw [hfound'] at hlook
      rw [Except.error.inj hlook]
    | ok found' =>
      rw [hfound'] at hlook
      cases hlook
  | ok found =>
    rw [hfound] at hlook
    obtain ⟨found', hfound', hcontents⟩ := exists_of_map_eq_ok hlook
    rw [hfound']
    cases found with
    | none => rw [Option.map_eq_none_iff.1 hcontents]
    | some entry =>
      obtain ⟨entry', rfl, hsame⟩ := Option.map_eq_some_iff.1 hcontents
      cases entry with
      | directory =>
        cases entry' with
        | directory => rfl
        | file bytes' modified' => cases hsame
      | file bytes modified =>
        cases entry' with
        | directory => cases hsame
        | file bytes' modified' => rw [Option.some.inj hsame]

namespace Pipeline

variable {pipeline : Pipeline}

/-- **Verdicts do not depend on times.** -/
theorem verdict_sameContents (h : SameContents tree tree') (scratch source : Path) :
    pipeline.verdict tree' scratch source = pipeline.verdict tree scratch source := by
  have hdrafted : ∀ css, drafted tree' scratch css = drafted tree scratch css := by
    intro css
    rw [drafted, drafted, h.target_eq]
  rw [verdict_eq, verdict_eq, Compiler.render_of_look (h.look source), h.target_eq]
  simp only [hdrafted]

variable (pipeline) in
/-- A workspace and a copy of it, in both of which scratch files can be made away from some
places. -/
structure Copies (taken : Set Location) (space copy : Workspace) : Prop where
  here : copy.here = space.here
  contents : space.tree.SameContents copy.tree
  sound : space.tree.Sound
  sound' : copy.tree.Sound
  fresh : pipeline.Fresh space taken
  fresh' : pipeline.Fresh copy taken

end Pipeline

end CssTypings
