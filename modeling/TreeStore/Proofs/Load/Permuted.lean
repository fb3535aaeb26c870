import TreeStore.Load.Loader
import TreeStore.Proofs.Hierarchy

/-! The order of a hierarchy's entries does not matter for loading: a tree is checked and loaded alike, whichever
way the entries are read back. -/

namespace TreeStore

variable {g h : Hierarchy} (same : g.entries.Perm h.entries)
include same

namespace Tree

omit same

mutual

theorem checkAt_perm (same : g.entries.Perm h.entries) (maxDepth : Nat) (path : NodePath) : (t : Tree) →
    t.checkAt g maxDepth path = t.checkAt h maxDepth path
  | ⟨type, attributes, children⟩ => by
    rw [checkAt, checkAt, checkChildren_perm same]

theorem checkChildren_perm (same : g.entries.Perm h.entries) (maxDepth : Nat) (path : NodePath) (parent : String)
    (index : Nat) : (ts : List Tree) →
    checkChildren g maxDepth path parent index ts = checkChildren h maxDepth path parent index ts
  | [] => rfl
  | c :: rest => by
    rw [checkChildren, checkChildren, Hierarchy.has_perm same, Hierarchy.childrenOf_perm same, checkAt_perm same,
      checkChildren_perm same]

end

end Tree

namespace Loader

variable {σ : Type} (store : Store σ) (settings : LoadSettings)

theorem attributeColumns_perm (type : String) (columns : List CatalogColumn) :
    attributeColumns g type columns = attributeColumns h type columns := by
  have keys : (g.relationsOf type).Perm (h.relationsOf type) := same.filter _
  rw [attributeColumns, attributeColumns]
  congr 1
  funext c
  rw [(keys.map fun e => Schema.contextColumn e.relation).any_eq]

theorem visitNode_perm : visitNode store g settings = visitNode store h settings := by
  funext path parent context type attributes
  unfold visitNode upsert recordJunction
  simp only [attributeColumns_perm same, Hierarchy.isLeaf_perm same, Hierarchy.relation?_perm same]

omit same

mutual

theorem visit_perm (same : g.entries.Perm h.entries) (path : NodePath) (parent : Option (String × Int))
    (context : Context) : (t : Tree) →
    visit store g settings path parent context t = visit store h settings path parent context t
  | ⟨type, attributes, children⟩ => by
    rw [visit, visit, visitNode_perm same]
    congr 1
    funext loaded
    exact visitChildren_perm same _ _ _ _ children

theorem visitChildren_perm (same : g.entries.Perm h.entries) (path : NodePath) (parent : Option (String × Int))
    (context : Context) (index : Nat) : (ts : List Tree) →
    visitChildren store g settings path parent context index ts =
      visitChildren store h settings path parent context index ts
  | [] => rfl
  | c :: rest => by
    rw [visitChildren, visitChildren, visit_perm same, visitChildren_perm same]

end

/-- A tree is loaded alike under hierarchies with the same entries. -/
theorem loadWith_perm (same : g.entries.Perm h.entries) (t : Tree) :
    loadWith store g settings t = loadWith store h settings t := by
  rw [loadWith, loadWith, Tree.check, Tree.check, Tree.checkAt_perm same, visit_perm store settings same]

end Loader

end TreeStore
