import FlowTrace.Engine
import FlowTrace.Proofs.Cpp.Rewording
import FlowTrace.Proofs.Python.Rewording

/-! # What literals hold

A literal stands for a value, whatever it holds. When its contents are reworded, the flowchart keeps
its outline and the program its running time, as long as the contents have nothing that the readers
of the language are alert to (`contents_inert`). Otherwise they may be taken for code
(`contents_taken_for_code`). -/

namespace FlowTrace.Engine

/-- The findings for a C++ source are those for the program that is read from it. -/
theorem cpp_eq_ok {source : Text} {f : Findings} : findings .cpp source = .ok f ↔
    ∃ p, Cpp.Program.parse source = .ok p ∧
      f = ⟨p.flow.1, p.flow.2, p.complexity, p.advice, p.memory⟩ := by
  cases parsed : Cpp.Program.parse source with
  | error e =>
    simp [findings, cpp, parsed, Except.mapError, bind, Except.bind]
  | ok p =>
    simp [findings, cpp, parsed, Except.mapError, bind, Except.bind, pure, Except.pure, eq_comm]

/-- The findings for a Python source are those for the module that is read from it. -/
theorem python_eq_ok {source : Text} {f : Findings} : findings .python source = .ok f ↔
    ∃ m, Python.Module.parse source = .ok m ∧
      f = ⟨m.flow.1, m.flow.2, m.complexity, m.advice, m.memory⟩ := by
  cases parsed : Python.Module.parse source with
  | error e =>
    simp [findings, python, parsed, Except.mapError, bind, Except.bind]
  | ok m =>
    simp [findings, python, parsed, Except.mapError, bind, Except.bind, pure, Except.pure, eq_comm]

/-- Findings have the same **shape** when their flowcharts have the same outline and the running
times are the same. -/
structure Findings.SameShape (f f' : Findings) : Prop where
  /-- The flowcharts differ at most in the texts inside their nodes. -/
  outline : f'.chart.outline = f.chart.outline
  /-- The running times are the same. -/
  time : f'.complexity.time = f.complexity.time

/-- Nothing changes with contents that are empty. -/
theorem original_eq_reworded {loud : Loud} {w : Rewording loud} (empty : w.old = [])
    (front back : Text) : w.original front back = w.reworded front back := by
  have same : w.new = w.old := by
    rw [empty]
    exact List.length_eq_zero_iff.1 (w.length_new.trans (List.length_eq_zero_iff.2 empty))
  rw [Rewording.original, Rewording.reworded, same]

/-- **The contents of a literal are inert** in C++ and Python programs, when they have no byte and no
word that the readers of the language are alert to: a reworded program has findings, with the same
outline of the flowchart and the same running time. -/
theorem contents_inert (front back : Text) :
    (∀ w : Rewording Cpp.loud, Cpp.Wordless w →
      Braced.inCode front (w.mark :: (w.old ++ w.mark :: back)) = true →
        Follows Findings.SameShape (findings .cpp (w.original front back))
          (findings .cpp (w.reworded front back))) ∧
    ∀ w : Rewording Python.loud, Python.InCode w front back →
      Follows Findings.SameShape (findings .python (w.original front back))
        (findings .python (w.reworded front back)) := by
  constructor
  · intro w wordless in_code f found
    by_cases empty : w.old = []
    · rw [← original_eq_reworded empty]
      exact ⟨f, found, rfl, rfl⟩
    · obtain ⟨p, parsed, rfl⟩ := cpp_eq_ok.1 found
      obtain ⟨p', parsed', outline, time⟩ :=
        Cpp.Program.parse_reworded wordless empty in_code parsed
      exact ⟨_, cpp_eq_ok.2 ⟨p', parsed', rfl⟩, outline, time⟩
  · intro w in_code f found
    by_cases empty : w.old = []
    · rw [← original_eq_reworded empty]
      exact ⟨f, found, rfl, rfl⟩
    · obtain ⟨m, parsed, rfl⟩ := python_eq_ok.1 found
      obtain ⟨m', parsed', akin⟩ := Python.Module.parse_akin empty in_code m parsed
      exact ⟨_, python_eq_ok.2 ⟨m', parsed', rfl⟩, Python.Module.flow_outline akin,
        Python.Module.time_eq akin⟩

/-- A greeting, and as many letters in its place. -/
def greeting (loud : Loud) (old_quiet : loud.Quiet "hello") (new_quiet : loud.Quiet "xxxxx") :
    Rewording loud where
  mark := Text.doubleQuote
  old := "hello"
  new := "xxxxx"
  is_mark := by decide
  length_new := rfl
  quiet_old := old_quiet
  quiet_new := new_quiet

/-- What a greeting says does not matter. -/
theorem greeting_inert :
    (∃ f f', findings .cpp "int main() \x7b s = \"hello\"; \x7d" = .ok f ∧
      findings .cpp "int main() \x7b s = \"xxxxx\"; \x7d" = .ok f' ∧ f.SameShape f') ∧
    ∃ f f', findings .python "def f():\n    print(\"hello\")\n" = .ok f ∧
      findings .python "def f():\n    print(\"xxxxx\")\n" = .ok f' ∧ f.SameShape f' := by
  constructor
  · have parsed : Cpp.Program.parse "int main() \x7b s = \"hello\"; \x7d" = .ok
        (Cpp.Program.of "int main() \x7b s = \"hello\"; \x7d"
          "int main() \x7b s = \"hello\"; \x7d") :=
      Cpp.Program.parse_eq_ok.2 ⟨_, by decide +kernel, by decide +kernel, rfl⟩
    have found := cpp_eq_ok.2 ⟨_, parsed, rfl⟩
    obtain ⟨f', found', same⟩ := (contents_inert "int main() \x7b s = " "; \x7d").1
      (greeting Cpp.loud (by unfold Loud.Quiet; decide +kernel) (by unfold Loud.Quiet; decide +kernel))
      ⟨by decide +kernel, by decide +kernel⟩ (by decide +kernel) _ found
    exact ⟨_, f', found, found', same⟩
  · have accepted :
        (Python.Module.parse "def f():\n    print(\"hello\")\n").toOption.isSome = true := by
      decide +kernel
    obtain ⟨m, parsed⟩ := exists_of_isSome_toOption accepted
    have found := python_eq_ok.2 ⟨m, parsed, rfl⟩
    have in_code : Python.InCode (greeting Python.loud (by unfold Loud.Quiet; decide +kernel)
        (by unfold Loud.Quiet; decide +kernel)) "def f():\n    print(" ")\n" := by
      refine ⟨"print(", ⟨⟨rfl, rfl⟩, by decide, ?_⟩, false, 2, _, rfl⟩
      decide +kernel
    obtain ⟨f', found', same⟩ := (contents_inert _ _).2 _ in_code _ found
    exact ⟨_, f', found, found', same⟩

/-- A message that is about a loop is taken for one, as is one with a call in it. -/
theorem contents_taken_for_code :
    ((Cpp.Program.parse "int main() \x7b\n  string s = \"while (\";\n\x7d\n").toOption.map fun p =>
        p.complexity.time) = some "O(n)" ∧
      ((Cpp.Program.parse "int main() \x7b\n  string s = \"xxxxxxx\";\n\x7d\n").toOption.map fun p =>
        p.complexity.time) = some "O(1)" ∧
      ((Python.Module.parse "def f():\n    print(\"f(\")\n").toOption.map fun m =>
        m.complexity.time) = some "O(2^n)" ∧
      ((Python.Module.parse "def f():\n    print(\"xx\")\n").toOption.map fun m =>
        m.complexity.time) = some "O(1)" := by decide +kernel

end FlowTrace.Engine
