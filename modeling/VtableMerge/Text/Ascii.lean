/-!
Texts without regard to case. Only ASCII letters have two cases here.
-/
namespace VtableMerge.Ascii

/-- The text with its letters in lower case. -/
def lowered (text : String) : String := String.ofList (text.toList.map Char.toLower)

end VtableMerge.Ascii
