import Telemetry.Datum

/-!
# Documents

A settings document is a tree whose parts can have anchors. A link to an anchor stands for the very part that is there: what
is assigned to a dictionary in one place is found in all places of it. A dictionary can even be a part of itself.

Settings are few levels deep. What is further down in a document is never looked at, so a document is read down to the level
that matters.

## Main definitions

* `Node`, `Content`: the parts of a document, and what they are
* `Document`: a document, which is what stands at one of its anchors
* `Document.entries?`: the entries of a part that is a dictionary
* `Document.read`: the datum that a part is, down to a level
* `Document.find?`, `Document.part`: what is in a part
* `Document.assign`, `Document.assignSection`: a document with other entries of a dictionary
* `Document.ofDatum`: a document without anchors
-/

namespace Telemetry

mutual

/-- **A part of a document**: something of its own, or a link to an anchor. -/
inductive Node where
  | own (content : Content)
  | link (anchor : Nat)

/-- **What a part is.** A datum is one by itself, if there is no link in it. -/
inductive Content where
  | plain (d : Datum)
  | list (items : List Node)
  | dict (entries : List (Datum × Node))

end

/-- A datum as a part. -/
def Node.plain (d : Datum) : Node := .own (.plain d)

def Content.entries? : Content → Option (List (Datum × Node))
  | .plain (.dict entries) => some (entries.map fun entry => (entry.1, .plain entry.2))
  | .dict entries => some entries
  | _ => none

/-- **A document**: the anchor at which it stands, and what is at each anchor. -/
structure Document where
  root : Nat
  contents : Nat → Content

namespace Document

/-- A document without anchors. -/
def ofDatum (d : Datum) : Document :=
  ⟨0, fun _ => .plain d⟩

instance : Coe Datum Document := ⟨ofDatum⟩

/-- What a part is. A link is what is at its anchor. -/
def content (document : Document) : Node → Content
  | .own content => content
  | .link anchor => document.contents anchor

/-- **The entries of a part** that is a dictionary. -/
def entries? (document : Document) (node : Node) : Option (List (Datum × Node)) :=
  (document.content node).entries?

/-- **The datum that a part is**, down to a level. Lists and dictionaries on the last level are shown without what is in
them. -/
def read (document : Document) : Nat → Node → Datum
  | 0, node =>
    match document.content node with
    | .plain d => d
    | .list _ => .list []
    | .dict _ => .dict []
  | depth + 1, node =>
    match document.content node with
    | .plain d => d
    | .list items => .list (items.map (document.read depth))
    | .dict entries => .dict (entries.map fun entry => (entry.1, document.read depth entry.2))

/-- The level of the texts of dictionaries in settings, under which there is nothing. -/
def depth : Nat := 4

def top (document : Document) : Node :=
  .link document.root

/-- **What a document is**, down to the level that matters. -/
def value (document : Document) : Datum :=
  document.read depth document.top

def find? (document : Document) (node : Node) (key : String) : Option Node :=
  (document.entries? node).bind (Datum.lookup · key)

/-- The part of a part under a title, which is empty if it is missing. -/
def part (document : Document) (node : Node) (title : String) : Node :=
  (document.find? node title).getD (.own (.dict []))

/-- **A document with other entries of the dictionary at an anchor.** All links to it have them. -/
def assign (document : Document) (anchor : Nat) (entries : List (Datum × Node)) : Document :=
  { document with contents := fun other => if other = anchor then .dict entries else document.contents other }

/-- **A document with other entries of a section** under a title. A section that has no anchor stands in this document only,
so there it is replaced. -/
def assignSection (document : Document) (title : String) (inner : List (Datum × Node)) : Document :=
  match document.part document.top title with
  | .link anchor => document.assign anchor inner
  | .own _ =>
    document.assign document.root <|
      Datum.insertEntry ((document.entries? document.top).getD []) (.text title) (.own (.dict inner))

end Document

end Telemetry
