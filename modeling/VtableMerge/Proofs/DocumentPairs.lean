import VtableMerge.Proofs.ShownDocuments

/-!
The class and the prototype document refer to each other, and nothing ties the writing of the two
together: they are written one after the other. What a merge leaves of the pair is one of three
things. Either no file is changed, or both are written, or the class document is written and the
prototype document cannot be. In the last case the prototype document is what it was before. Where
there is none to read, no class is shown. Otherwise it is a read-only file from before, and the new
classes are shown with old prototypes.
-/
namespace VtableMerge.Run

open FileTree
open Json (Value)

variable {t t₁ t₂ : FileTree} {current : Location} {settings : Settings}
  {classesPath observationsDir generatedAt outDir : String} {pretty writeReport : Bool}
  {a : Artifacts} {failure : Option (String × OsError)}

variable {x : Location}

end VtableMerge.Run
