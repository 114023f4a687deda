import ClassDiagram.Diagram.Accessors
import ClassDiagram.Diagram.Importance
import ClassDiagram.Diagram.Inference
import ClassDiagram.Diagram.Resolution
import ClassDiagram.Failure

/-!
# The pipeline

The passes over a diagram whose entities are all registered: names are resolved, associations
are inferred, and, as the settings say, accessors are added and importance is marked.
-/

namespace ClassDiagram

/-- Read a documentation block as the settings say. -/
def Settings.readDoc (s : Settings) (raw : String) : Except Failure (Option Comment) :=
  (Block.readUnder s.docPolicy raw).mapError fun faults =>
    .documentation (faults.map (·.diagnostic))

namespace Diagram

/-- Add the missing accessors if the settings ask for them. -/
def accessorPass (s : Settings) (d : Diagram) : Except Failure Diagram :=
  if s.getters then (d.synthesizeAccessors.map Prod.fst).mapError .model else .ok d

/-- Mark importance if the settings ask for it. -/
def importancePass (s : Settings) (d : Diagram) : Diagram :=
  if s.importance then d.markImportant.1 else d

/-- Run the passes; the diagnostics are those of this run. -/
def run (s : Settings) (d : Diagram) : Except Failure (Diagram × List Diagnostic) := do
  let extended ← accessorPass s (d.resolve.associate s.association)
  let marked := importancePass s extended
  return (marked, marked.diagnostics.drop d.diagnostics.length)

end Diagram

end ClassDiagram
