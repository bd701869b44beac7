/-
The nodes of a document: scalars, sequences and mappings with their tags.

Nodes refer to each other by their places in a graph. What an alias refers to is the same node
again, so that a node may occur in many places, and a collection may occur in itself.
-/
import CharmDepot.Yaml.Schema

namespace CharmDepot.Yaml

/-- The place of a node in its graph. -/
abbrev NodeId := Nat

/-- What a node holds. -/
inductive Content
  | scalar (text : String)
  | sequence (items : Array NodeId)
  | mapping (entries : Array (NodeId × NodeId))
  deriving Inhabited

/-- A node of a document. -/
structure Node where
  tag : Tag
  content : Content

instance : Inhabited Node := ⟨⟨.null, .scalar ""⟩⟩

/-- The nodes of a document. -/
abbrev Graph := Array Node

namespace Graph

/-- The node at a place, a null where there is none. -/
def node (g : Graph) (id : NodeId) : Node := g.getD id default

/-- The tag of a node. -/
def tag (g : Graph) (id : NodeId) : Tag := (g.node id).tag

/-- The entries of a mapping. -/
def entries? (g : Graph) (id : NodeId) : Option (Array (NodeId × NodeId)) :=
  match (g.node id).content with
  | .mapping entries => some entries
  | _ => none

/-- Changes the content of a node. -/
def setContent (g : Graph) (id : NodeId) (content : Content) : Graph :=
  g.modify id fun n => { n with content }

/-- Changes the tag of a node. -/
def setTag (g : Graph) (id : NodeId) (tag : Tag) : Graph :=
  g.modify id fun n => { n with tag }

end Graph

/-- How deep what is read from nodes may be nested where it is read from the outside to the inside:
mappings that are merged, and mappings that stand for scalars. -/
def nodeLevels : Nat := 980

end CharmDepot.Yaml
