import CommandScript.Catalog.Standard
import CommandScript.Proofs.Tree.Holding

set_option autoImplicit false

namespace CommandScript

-- The place of an operation in the catalog.
def StandardOperation.path : StandardOperation → List String
  | .type operation => ["SFScript", "Type", operation.key]
  | .interface operation => ["SFScript", "Interface", operation.key]
  | .console operation => ["System", "Console", operation.key]
  | .debug operation => ["Engine", "Debug", operation.key]
  | .vector operation => ["Engine", "Vector3", operation.key]
  | .math operation => ["Engine", "Mathf", operation.key]
  | .color operation => ["Engine", "Color", operation.key]
  | .text operation => ["Engine", "UI", "Text", operation.key]
  | .image operation => ["Engine", "UI", "Image", operation.key]

def StandardOperation.all : List StandardOperation :=
  TypeOperation.all.map .type ++ InterfaceOperation.all.map .interface ++ ConsoleOperation.all.map .console ++
    DebugOperation.all.map .debug ++ VectorOperation.all.map .vector ++ MathOperation.all.map .math ++
    ColorOperation.all.map .color ++ TextOperation.all.map .text ++ ImageOperation.all.map .image

theorem StandardOperation.mem_all (operation : StandardOperation) : operation ∈ all := by
  cases operation with
  | type operation => cases operation <;> decide
  | interface operation => cases operation <;> decide
  | console operation => cases operation <;> decide
  | debug operation => cases operation <;> decide
  | vector operation => cases operation <;> decide
  | math operation => cases operation <;> decide
  | color operation =>
    cases operation with
    | create => decide
    | named color => cases color <;> decide
  | text operation => cases operation <;> decide
  | image operation => cases operation <;> decide

namespace Catalog

theorem standard_well_keyed : standard.WellKeyed :=
  Tree.build_well_keyed "" (.group outline) standard ofChildren_outline

def standsAtPath (keys : List String) : Bool :=
  match standard.route keys with
  | .reached operation => operation.path == keys
  | _ => false

-- Both facts in one, so that the tree is built once.
theorem all_placed : ((standard.pathsAt []).all standsAtPath &&
    StandardOperation.all.all fun operation => decide (standard.route operation.path = .reached operation)) = true := by
  decide +kernel

theorem reached_at_path (operation : StandardOperation) : standard.route operation.path = .reached operation :=
  of_decide_eq_true (List.all_eq_true.mp (Bool.and_eq_true_iff.mp all_placed).2 operation operation.mem_all)

theorem held_at_path (keys : List String) (operation : StandardOperation) (held : standard.Holds keys operation) :
    operation.path = keys := by
  have listed : keys ∈ standard.pathsAt [] :=
    (Tree.mem_paths_at standard standard_well_keyed [] keys).mpr ⟨keys, operation, held, rfl⟩
  have stands := List.all_eq_true.mp (Bool.and_eq_true_iff.mp all_placed).1 keys listed
  have routed := Tree.route_held standard standard_well_keyed keys [] operation held
  rw [List.append_nil] at routed
  rw [standsAtPath, routed] at stands
  exact eq_of_beq stands

theorem reached_under_path (path : List String) (operation : StandardOperation) (reached : standard.route path = .reached operation) :
    operation.path <+: path := by
  obtain ⟨keys, held, leads⟩ := Tree.route_reached standard path operation reached
  exact held_at_path keys operation held ▸ leads

theorem reached_beyond (operation : StandardOperation) (path : List String) (leads : operation.path <+: path) :
    standard.route path = .reached operation := by
  obtain ⟨keys, held, _⟩ := Tree.route_reached standard operation.path operation (reached_at_path operation)
  obtain ⟨rest, rfl⟩ := leads
  rw [held_at_path keys operation held]
  exact Tree.route_held standard standard_well_keyed keys rest operation held

end Catalog

end CommandScript
