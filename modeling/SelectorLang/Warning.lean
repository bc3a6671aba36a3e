/-! # Warnings

A warning names the component it comes from and says what was noticed. A registry
remembers what was reported since it was last cleared, and a warning is printed only
when it is first reported: asking never changes the registry, and reporting a
warning makes it known (`Registry.knows_report`). Calls are performed one after the
other, each on the registry that the last one left.
-/

namespace SelectorLang

/-- A recoverable problem that a component noticed. -/
structure Warning where
  /-- The component. -/
  component : String
  /-- What it noticed. -/
  message : String
deriving DecidableEq, Repr

namespace Warning

/-- The text that tells warnings apart. -/
def key (warning : Warning) : String :=
  "[" ++ warning.component ++ "] " ++ warning.message

/-- The line that is printed, in yellow on a terminal. -/
def line (warning : Warning) : String :=
  "\x1b[33m[sift " ++ warning.component ++ "] ⚠ " ++ warning.message ++ "\x1b[39m\n"

end Warning

/-- The keys of the warnings reported since the last clearing. -/
structure Registry where
  /-- The keys, the latest first. -/
  keys : List String
deriving DecidableEq, Repr

namespace Registry

/-- Nothing reported yet. -/
def empty : Registry := ⟨[]⟩

instance : Inhabited Registry := ⟨empty⟩

/-- Whether a warning was reported. -/
def knows (registry : Registry) (warning : Warning) : Bool :=
  registry.keys.contains warning.key

/-- Reports a warning: what is printed, and the registry that knows it. -/
def report (registry : Registry) (warning : Warning) : String × Registry :=
  if registry.knows warning then ("", registry)
  else (warning.line, ⟨warning.key :: registry.keys⟩)

/-- Reports warnings one after the other. -/
def reportAll (registry : Registry) : List Warning → String × Registry
  | [] => ("", registry)
  | warning :: rest =>
    let (line, registry) := registry.report warning
    let (lines, registry) := registry.reportAll rest
    (line ++ lines, registry)

/-- Something that a registry is asked to do. -/
inductive Call where
  /-- To report a warning. -/
  | report (warning : Warning)
  /-- To tell whether a warning was reported. -/
  | ask (warning : Warning)
  /-- To forget what was reported. -/
  | clear
deriving DecidableEq, Repr

/-- What a call comes to. -/
inductive Answer where
  /-- What was printed; nothing for a warning that was known. -/
  | printed (text : String)
  /-- Whether a warning was reported. -/
  | known (isKnown : Bool)
  /-- Nothing to tell. -/
  | cleared
deriving DecidableEq, Repr

/-- Performs a call: its answer, and the registry that it leaves. -/
def perform (registry : Registry) : Call → Answer × Registry
  | .report warning => (.printed (registry.report warning).1, (registry.report warning).2)
  | .ask warning => (.known (registry.knows warning), registry)
  | .clear => (.cleared, empty)

/-- Performs calls one after the other. -/
def performAll (registry : Registry) : List Call → List Answer × Registry
  | [] => ([], registry)
  | call :: rest =>
    let (answer, next) := registry.perform call
    let (answers, last) := next.performAll rest
    (answer :: answers, last)

/-- A reported warning is known. -/
theorem knows_report (registry : Registry) (warning : Warning) :
    (registry.report warning).2.knows warning = true := by
  unfold report
  split
  · assumption
  · simp [knows]

/-- A known warning is printed no more. -/
theorem report_of_knows {registry : Registry} {warning : Warning}
    (known : registry.knows warning = true) : registry.report warning = ("", registry) := by
  rw [report, if_pos known]

end Registry

end SelectorLang
