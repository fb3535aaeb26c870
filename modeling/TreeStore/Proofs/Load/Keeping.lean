import TreeStore.Proofs.Load.Session

/-! What a load keeps. A property of databases that survives every single step of loading a node survives whole loads,
however they end. -/

namespace TreeStore

open Database Loader

variable {V : Type} (vs : ValueSystem V) (m : Model)

structure StepsKeep (I : Database V → Prop) : Prop where
  upserted : ∀ {x : Trail} {t : Table} {n : Int} {db db' : Database V} {report report' : LoadReport},
    Consistent vs m db → m.TableFor x.node.type t → Upserted vs m t x.node.attributes db report n db' report' →
      I db → I db'
  surrounded : ∀ {x : Trail} {db db' : Database V} {report report' : LoadReport}, Consistent vs m db →
    Lawful m x.line → x.node.bears = true → db.Knows vs x.line → Surrounded vs m x db report db' report' → I db → I db'
  paired : ∀ {settings : LoadSettings} {x : Trail} {db db' : Database V} {report report' : LoadReport},
    Consistent vs m db → Lawful m x.line → db.Knows vs x.line → Paired vs m settings x db report db' report' →
      I db → I db'
  refused : ∀ {enforce : Bool} {x : Trail} {error : LoadError} {db db' : Database V}, Consistent vs m db →
    NodeRefused vs m enforce x db error db' → I db → I db'

theorem StepsKeep.trivial : StepsKeep vs m fun _ => True :=
  ⟨fun _ _ _ _ => .intro, fun _ _ _ _ _ _ => .intro, fun _ _ _ _ _ => .intro, fun _ _ _ => .intro⟩

variable {vs m} {I : Database V → Prop} {enforce : Bool} {settings : LoadSettings} {x : Trail} {xs : List Trail}
  {db db' : Database V} {report report' : LoadReport} {error : LoadError} (each : StepsKeep vs m I)
  (compiles : m.Compiles) (ideal : vs.Ideal)
include each compiles ideal

theorem NodeLoaded.keeps (loaded : NodeLoaded vs m settings x db report db' report') (before : Consistent vs m db)
    (lawful : Lawful m x.line) (knows : db.Knows vs x.above) (holds : I db) : I db' := by
  cases loaded with
  | container container => exact holds
  | bearing bears table fits castable upserted surrounded paired =>
    have first := upserted.consistent compiles table.mem ideal table.kind before fits castable
    have line := upserted.knows compiles ideal bears table before fits castable knows
    have second := surrounded.consistent compiles first
    refine each.paired second lawful (surrounded.grows.knows line) paired ?_
    exact each.surrounded first lawful bears line surrounded (each.upserted before table upserted holds)

theorem Loaded.keeps (loaded : Loaded vs m settings xs db report db' report') (before : Consistent vs m db)
    (holds : I db) : I db' := by
  induction loaded with
  | nil db report => exact holds
  | cons lawful knows first others ih =>
    exact ih (first.consistent compiles ideal before) (first.keeps each compiles ideal before lawful knows holds)

theorem Stopped.keeps (stopped : Stopped vs m enforce settings xs db report error db') (before : Consistent vs m db)
    (holds : I db) : I db' := by
  induction stopped with
  | here lawful refused => exact each.refused before refused holds
  | later lawful knows first others ih =>
    exact ih (first.consistent compiles ideal before) (first.keeps each compiles ideal before lawful knows holds)

theorem LoadEnds.keeps {t : Tree} {result : Except LoadError LoadReport}
    (ends : LoadEnds vs m enforce settings t db result db') (before : Consistent vs m db) (holds : I db) : I db' := by
  cases ends with
  | violation bad => exact holds
  | done checked loaded => exact loaded.keeps each compiles ideal before holds
  | failed checked stopped => exact stopped.keeps each compiles ideal before holds

end TreeStore
