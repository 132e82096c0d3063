/-! Which symbols the index keeps: those that start with one of a list of prefixes, or all of them if
the list is empty. -/
namespace ClassXref

structure NamespaceFilter where
  prefixes : List String
  deriving Repr, DecidableEq, Inhabited

namespace NamespaceFilter

/-- What is kept when nothing is configured. -/
def standard : NamespaceFilter := ⟨["net/minecraft", "com/mojang"]⟩

def accepts (filter : NamespaceFilter) (symbol : String) : Bool :=
  filter.prefixes.isEmpty || filter.prefixes.any fun p => p.toList.isPrefixOf symbol.toList

theorem accepts_iff {filter : NamespaceFilter} {symbol : String} :
    filter.accepts symbol = true ↔
      filter.prefixes = [] ∨ ∃ p ∈ filter.prefixes, p.toList <+: symbol.toList := by
  simp [accepts]

end NamespaceFilter
end ClassXref
