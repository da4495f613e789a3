import MonkeyTokens.Log.Directive

/-!
# Log filters

A filter is a list of directives, the most specific first and no two for the same target. The
first one that covers the target of an event decides whether the event is shown; an event that
none covers is not.

A filter is written as directives with commas between them. Of two for the same target the later
one counts, and empty ones are left out.
-/

namespace MonkeyTokens.Log

/-- Directives, the most specific first. -/
structure Filter where
  directives : List Directive
  deriving DecidableEq, Repr

namespace Filter

/-- Put a directive in its place, instead of the one for the same target if there is one. -/
def place (d : Directive) : List Directive → List Directive
  | [] => [d]
  | e :: es =>
    if d.target? = e.target? then d :: es
    else if d.isBefore e then d :: e :: es
    else e :: place d es

/-- The filter that these directives make. -/
def ofDirectives (ds : List Directive) : Filter := ⟨ds.foldl (fun placed d ↦ place d placed) []⟩

/-- The directives in a text, as they are written. -/
def written (text : String) : List (List Char) :=
  (text.toList.splitOn ',').filter fun part ↦ !part.isEmpty

/-- The filter that a text stands for, if each of its directives can be understood. -/
def ofString? (text : String) : Option Filter :=
  ofDirectives <$> (written text).mapM Directive.ofList?

/-- The filter that the directives in a text make, but for those that cannot be understood. -/
def ofString (text : String) : Filter := ofDirectives ((written text).filterMap Directive.ofList?)

/-- The written form. -/
def render (f : Filter) : String := ",".intercalate (f.directives.map Directive.render)

/-- Whether an event is shown. -/
def shows (f : Filter) (e : Event) : Bool :=
  match f.directives.find? (·.covers e.target) with
  | none => false
  | some d => d.shows e.level

end Filter

end MonkeyTokens.Log
