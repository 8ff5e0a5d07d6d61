import ErdSql.Path

/-!
# Where scripts are written

The scripts of a project lie below its output folder in the same arrangement as the documents below
their deepest common folder.
-/

namespace ErdSql.Generation

/-- The extension of scripts. -/
def scriptExtension : String := ".sql"

/-- Whether a path lies in a folder or is the folder itself: the way from the folder to it does not go
up. -/
def within (dir p : Path) : Bool :=
  (Path.relative? dir p).any fun way => !way.goesUp

/-- The first folder that a path lies in, from a folder on upwards. The topmost folder is the last one to
be tried. -/
def climb (dir p : Path) : Path :=
  if within dir p || dir.parts.isEmpty then dir else climb dir.dir p
termination_by dir.parts.length
decreasing_by
  have some : 0 < dir.parts.length := List.length_pos_iff.2 (by simp_all)
  simp only [Path.dir, List.length_dropLast]
  omega

/-- The deepest folder that contains all paths. -/
def commonDir : List Path → Path
  | [] => ⟨false, []⟩
  | p :: ps => ps.foldl climb p.dir

/-- The path of a document as seen from a folder; only its last part if it is not below the folder. -/
def placeBelow (root source : Path) : String :=
  match Path.relative? root source with
  | none => source.base
  | some p => if p.goesUp then source.base else p.text

/-- The path of the script of a document. -/
def outputPath (out root source : Path) : Path :=
  out.join (Path.withoutExtension (placeBelow root source) ++ scriptExtension)

end ErdSql.Generation
