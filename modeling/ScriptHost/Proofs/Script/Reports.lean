import ScriptHost.Script.Compile
import ScriptHost.Proofs.Computation

/-!
# What the compiler reports

The first stage that finds an error reports all that it has found, and nothing is compiled. A text
that is compiled comes with warnings only.
-/

namespace ScriptHost

/-- What a compiler has found in a text, compiled or not. -/
def reported : Except (List Diagnostic) Compilation → List Diagnostic
  | .error ds => ds
  | .ok compilation => compilation.warnings

/-- The compiler rejects a text with an error at least, and has only warnings on one that it
compiles. -/
def Compiler.Grades (c : Compiler) : Prop :=
  ∀ source references prior,
    match c.compile source references prior with
    | .error ds => errorsOf ds ≠ []
    | .ok compilation => ∀ d ∈ compilation.warnings, d.severity = .warning

theorem errorsOf_eq_self {ds : List Diagnostic} (h : ∀ d ∈ ds, d.severity = .error) :
    errorsOf ds = ds := by
  apply List.filter_eq_self.2
  intro d hd
  simp [Diagnostic.isError, h d hd]

theorem warningsOf_eq_nil {ds : List Diagnostic} (h : ∀ d ∈ ds, d.severity = .error) :
    warningsOf ds = [] := by
  apply List.filter_eq_nil_iff.2
  intro d hd
  simp [Diagnostic.isError, h d hd]

theorem errorsOf_eq_nil {ds : List Diagnostic} (h : ∀ d ∈ ds, d.severity = .warning) :
    errorsOf ds = [] := by
  apply List.filter_eq_nil_iff.2
  intro d hd
  simp [Diagnostic.isError, h d hd]

theorem warningsOf_eq_self {ds : List Diagnostic} (h : ∀ d ∈ ds, d.severity = .warning) :
    warningsOf ds = ds := by
  apply List.filter_eq_self.2
  intro d hd
  simp [Diagnostic.isError, h d hd]

theorem severity_of_mem_errorsOf {ds : List Diagnostic} {d : Diagnostic} (h : d ∈ errorsOf ds) :
    d.severity = .error := beq_iff_eq.1 (List.mem_filter.1 h).2

theorem severity_of_mem_warningsOf {ds : List Diagnostic} {d : Diagnostic}
    (h : d ∈ warningsOf ds) : d.severity = .warning := by
  have hnot : d.isError = false := by simpa using (List.mem_filter.1 h).2
  cases hs : d.severity with
  | error => simp [Diagnostic.isError, hs] at hnot
  | warning => rfl

namespace Script

/-- The reports of the three stages. Those of the first two are errors; among the findings of the
check there may be warnings. -/
inductive Reports : Except (List Diagnostic) Compilation → Prop
  | lexical {es : List (Placed LexicalError)} (h : es ≠ []) :
      Reports (.error (es.map LexicalError.diagnostic))
  | syntactic {es : List (Placed SyntaxError)} (h : es ≠ []) :
      Reports (.error (es.map SyntaxError.diagnostic))
  | rejected {fs : List (Placed Finding)} {f : Placed Finding} (h : f ∈ fs)
      (herror : f.val.severity = .error) : Reports (.error (fs.map Finding.diagnostic))
  | accepted {activity : Activity} {fs : List (Placed Finding)}
      (h : ∀ f ∈ fs, f.val.severity = .warning) :
      Reports (.ok ⟨activity, fs.map Finding.diagnostic⟩)

theorem lex_ne_error_nil (source : String) : lex source ≠ .error [] := by
  rw [lex]
  split
  · exact nofun
  · rename_i hsome
    intro h
    rw [Except.error.inj h] at hsome
    exact hsome rfl

theorem parse_ne_error_nil (tokens : List (Placed Token)) (finish : Location) :
    parse tokens finish ≠ .error [] := by
  rw [parse]
  split
  · exact nofun
  · rename_i hsome
    intro h
    rw [Except.error.inj h] at hsome
    exact hsome rfl

/-- The check rejects a text for an error among its findings, and accepts it when there is none. -/
theorem severity_of_check (statements : List Stmt) (prior : State) (references : List Reference) :
    match check statements prior references with
    | .error fs => ∃ f ∈ fs, f.val.severity = .error
    | .ok checked => ∀ f ∈ checked.2, f.val.severity = .warning := by
  rw [check]
  split
  · rename_i h
    split at h
    · rename_i hany
      cases h
      simpa using hany
    · cases h
  · rename_i h
    split at h
    · cases h
    · rename_i hany
      cases h
      intro f hf
      cases hs : f.val.severity with
      | warning => rfl
      | error => exact absurd (List.any_eq_true.2 ⟨f, hf, by simp [hs]⟩) hany

theorem reports_compile (source : String) (references : List Resolved)
    (prior : Option Continuation) : Reports (compile source references prior) := by
  rw [compile, frontEnd]
  cases hlex : lex source with
  | error es => exact .lexical fun hnil => lex_ne_error_nil source (hnil ▸ hlex)
  | ok read =>
      obtain ⟨tokens, finish⟩ := read
      cases hparse : parse tokens finish with
      | error es =>
          simp only [Computation.mapError_ok, Computation.mapError_error, bind, Except.bind, hparse]
          exact .syntactic fun hnil => parse_ne_error_nil tokens finish (hnil ▸ hparse)
      | ok statements =>
          have hcheck := severity_of_check statements (Continuation.startState prior)
            (references.map (·.reference))
          cases hchecked : check statements (Continuation.startState prior)
              (references.map (·.reference)) with
          | error fs =>
              rw [hchecked] at hcheck
              obtain ⟨f, hf, herror⟩ := hcheck
              simp only [Computation.mapError_ok, Computation.mapError_error, bind, Except.bind,
                hparse, hchecked]
              exact .rejected hf herror
          | ok checked =>
              rw [hchecked] at hcheck
              simp only [Computation.mapError_ok, bind, Except.bind, pure, Except.pure, hparse,
                hchecked]
              exact .accepted hcheck

theorem grades_compiler : compiler.Grades := by
  intro source references prior
  have hall : ∀ {α : Type} {report : Placed α → Diagnostic} {es : List (Placed α)},
      es ≠ [] → (∀ e, (report e).severity = .error) → errorsOf (es.map report) ≠ [] := by
    intro α report es hne hreport
    rw [errorsOf_eq_self]
    · exact fun hnil => hne (List.map_eq_nil_iff.1 hnil)
    · intro d hd
      obtain ⟨e, -, rfl⟩ := List.mem_map.1 hd
      exact hreport e
  show match compile source references prior with
    | .error ds => errorsOf ds ≠ []
    | .ok compilation => ∀ d ∈ compilation.warnings, d.severity = .warning
  have hreports := reports_compile source references prior
  generalize compile source references prior = result at hreports ⊢
  cases hreports with
  | lexical h => exact hall h fun _ => rfl
  | syntactic h => exact hall h fun _ => rfl
  | @rejected fs f hf herror =>
      refine List.ne_nil_of_mem (a := Finding.diagnostic f) (List.mem_filter.2 ⟨?_, ?_⟩)
      · exact List.mem_map_of_mem hf
      · exact beq_iff_eq.2 herror
  | accepted h =>
      intro d hd
      obtain ⟨f, hf, rfl⟩ := List.mem_map.1 hd
      exact h f hf

end Script

end ScriptHost
