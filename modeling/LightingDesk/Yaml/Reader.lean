import LightingDesk.Yaml.Node
import LightingDesk.Yaml.Scalar

/-!
# Reading documents

A document is a node.  Blocks are told apart by their columns: the entries of a block stand
in one column, and what belongs to an entry stands to the right of it.  Flow collections
are told apart by brackets.  A node may carry a tag, and a name by which later nodes can
stand for it again.  Nothing but a single document can be read; an empty text holds none.

Every function takes an amount of fuel that exceeds the number of characters, and each call
reads at least one of them.
-/

namespace LightingDesk.Yaml

open Mark

/-- What is left to read, the nodes that have been named, newest first, and the column that flow
collections may not leave to the left. -/
structure Place where
  rest : List Mark
  named : List (String × Node)
  floor : Int

namespace Place

/-- Another place with the same names. -/
def goTo (p : Place) (rest : List Mark) : Place := { p with rest }

/-- Names a node, if a name is given. -/
def note (p : Place) (name : Option String) (n : Node) : Place :=
  match name with
  | some name => { p with named := (name, n) :: p.named }
  | none => p

/-- The node with a name. -/
def remembered? (p : Place) (name : String) : Option Node :=
  (p.named.find? (·.1 == name)).map (·.2)

end Place

/-! ## Tags and names -/

/-- What may stand in front of a node. -/
structure Properties where
  tag : Option Tag
  name : Option String

/-- The characters up to a gap or a part of a flow collection. -/
def bareWord (ms : List Mark) : List Char × List Mark :=
  let (w, rest) := ms.span fun m => !isGap m.char ∧ !isFlow m.char
  (chars w, rest)

/-- The tag that a word after an exclamation mark spells. -/
def tagOf (word : String) : Tag :=
  match word with
  | "!bool" => .bool
  | "!int" => .int
  | "!float" => .real
  | "!null" => .null
  | _ => .other

/-- Reads the properties in front of a node: a tag, a name, or both in either order. -/
def properties (p : Properties) (fuel : Nat) (ms : List Mark) : Option (Properties × List Mark) :=
  match fuel, ms with
  | 0, _ => none
  | _, [] => some (p, [])
  | fuel + 1, m :: rest =>
    if m.char = '&' then
      match p.name, bareWord rest with
      | none, (w, after) =>
        if w.isEmpty then none
        else properties { p with name := some (String.ofList w) } fuel (skipSpaces after)
      | some _, _ => none
    else if m.char = '!' then
      match p.tag, bareWord rest with
      | none, (w, after) =>
        properties { p with tag := some (tagOf (String.ofList w)) } fuel (skipSpaces after)
      | some _, _ => none
    else some (p, m :: rest)

/-- Whether properties begin here. -/
def hasProperties (ms : List Mark) : Bool := ms.head?.any fun m => m.char = '&' ∨ m.char = '!'

/-- Whether a sign with a gap behind it stands here. -/
def signHere (c : Char) : List Mark → Bool
  | m :: rest => m.char = c ∧ atGap rest
  | [] => false

/-- What follows the colon behind a key in a flow collection.  Behind a quoted key or a collection
nothing has to follow the colon. -/
def flowColon (adjacent : Bool) : List Mark → Option (List Mark)
  | m :: rest =>
    if m.char = ':' ∧ (adjacent ∨ atGap rest ∨ rest.head?.any fun n => isFlow n.char) then some rest
    else none
  | [] => none

/-- The next content inside a flow collection. -/
def flowSkip (p : Place) : Option Place :=
  match skip p.floor p.rest with
  | some rest =>
    if atEnd rest ∨ (columnOf rest : Int) < p.floor then none else some (p.goTo rest)
  | none => none

/-- Whether one of the given characters comes next. -/
def nextIs (cs : List Char) (p : Place) : Bool := p.rest.head?.any fun m => cs.contains m.char

/-- A map that does not hold a key twice. -/
def extend? (entries : List (Node × Node)) (key value : Node) : Option (List (Node × Node)) :=
  if entries.any (·.1 == key) then none else some (entries ++ [(key, value)])

/-! ## Flow collections -/

mutual

/-- A node in a flow collection inside a block at column `parent`, and whether it is quoted or a
collection. -/
def flowNode (parent : Int) : Nat → Place → Option (Node × Bool × Place)
  | 0, _ => none
  | fuel + 1, p =>
    if hasProperties p.rest then
      match properties ⟨none, none⟩ p.rest.length p.rest with
      | none => none
      | some (props, rest) =>
        match flowSkip (p.goTo rest) with
        | none => none
        | some q =>
          if nextIs [',', ']', '\x7d'] q ∨ (flowColon false q.rest).isSome then
            let n := Node.ofScalar true props.tag []
            some (n, false, q.note props.name n)
          else
            match flowContent parent props.tag fuel q with
            | some (n, closed, q) => some (n, closed, q.note props.name n)
            | none => none
    else flowContent parent none fuel p

/-- A node without properties in a flow collection. -/
def flowContent (parent : Int) (tag : Option Tag) : Nat → Place → Option (Node × Bool × Place)
  | 0, _ => none
  | fuel + 1, p =>
    match p.rest with
    | [] => none
    | m :: rest =>
      if m.char = '*' then
        let (w, after) := bareWord rest
        (p.remembered? (String.ofList w)).map fun n => (n, false, p.goTo after)
      else if m.char = '[' then
        (flowItems parent [] fuel (p.goTo rest)).map fun (items, q) => (.list items, true, q)
      else if m.char = '\x7b' then
        (flowEntries parent [] fuel (p.goTo rest)).map fun (entries, q) => (.map entries, true, q)
      else if m.char = '"' ∨ m.char = '\'' then
        (Scalar.quoted p.floor p.rest).map fun (cs, after) =>
          (.ofScalar false tag cs, true, p.goTo after)
      else
        (Scalar.plain true parent false p.rest).map fun (cs, after) =>
          (.ofScalar true tag cs, false, { p with rest := after, floor := min p.floor parent })

/-- What follows a key in a flow collection: a colon and a value, or nothing. -/
def flowValue (parent : Int) : Nat → Place → Option (Node × Place)
  | 0, _ => none
  | fuel + 1, p =>
    match flowSkip p with
    | none => none
    | some q =>
      if nextIs [',', ']', '\x7d'] q then some (.null, q)
      else (flowNode parent fuel q).map fun (n, _, q) => (n, q)

/-- The items of a list, from behind its bracket or a comma. -/
def flowItems (parent : Int) (items : List Node) : Nat → Place → Option (List Node × Place)
  | 0, _ => none
  | fuel + 1, p =>
    match flowSkip p with
    | none => none
    | some p =>
      if nextIs [']'] p then some (items, p.goTo (p.rest.drop 1))
      else
        let item : Option (Node × Place) :=
          match flowColon false p.rest with
          | some after =>
            (flowValue parent fuel (p.goTo after)).map fun (v, q) => (.map [(.null, v)], q)
          | none =>
            let explicit := signHere '?' p.rest
            match flowNode parent fuel
                (if explicit then (flowSkip (p.goTo (p.rest.drop 1))).getD p else p) with
            | none => none
            | some (k, closed, q) =>
              match flowColon closed q.rest with
              | some after =>
                (flowValue parent fuel (q.goTo after)).map fun (v, q) => (.map [(k, v)], q)
              | none =>
                match flowSkip q with
                | none => none
                | some q =>
                  match flowColon false q.rest with
                  | some after =>
                    (flowValue parent fuel (q.goTo after)).map fun (v, q) => (.map [(k, v)], q)
                  | none => some (if explicit then .map [(k, .null)] else k, q)
        match item with
        | none => none
        | some (n, q) =>
          match flowSkip q with
          | none => none
          | some q =>
            if nextIs [','] q then flowItems parent (items ++ [n]) fuel (q.goTo (q.rest.drop 1))
            else if nextIs [']'] q then some (items ++ [n], q.goTo (q.rest.drop 1))
            else none

/-- The entries of a map, from behind its brace or a comma. -/
def flowEntries (parent : Int) (entries : List (Node × Node)) :
    Nat → Place → Option (List (Node × Node) × Place)
  | 0, _ => none
  | fuel + 1, p =>
    match flowSkip p with
    | none => none
    | some p =>
      if nextIs ['\x7d'] p then some (entries, p.goTo (p.rest.drop 1))
      else
        let p := if signHere '?' p.rest then (flowSkip (p.goTo (p.rest.drop 1))).getD p else p
        let entry : Option (Node × Node × Place) :=
          match flowColon false p.rest with
          | some after => (flowValue parent fuel (p.goTo after)).map fun (v, q) => (.null, v, q)
          | none =>
            if nextIs [',', '\x7d'] p then some (.null, .null, p)
            else
              match flowNode parent fuel p with
              | none => none
              | some (k, closed, q) =>
                match flowColon closed q.rest with
                | some after => (flowValue parent fuel (q.goTo after)).map fun (v, q) => (k, v, q)
                | none =>
                  match flowSkip q with
                  | none => none
                  | some q =>
                    match flowColon false q.rest with
                    | some after =>
                      (flowValue parent fuel (q.goTo after)).map fun (v, q) => (k, v, q)
                    | none => some (k, .null, q)
        match entry with
        | none => none
        | some (k, v, q) =>
          match extend? entries k v, flowSkip q with
          | some entries, some q =>
            if nextIs [','] q then flowEntries parent entries fuel (q.goTo (q.rest.drop 1))
            else if nextIs ['\x7d'] q then some (entries, q.goTo (q.rest.drop 1))
            else none
          | _, _ => none

end

/-! ## Blocks -/

/-- A key on one line with its colon, if that is what stands here, and what follows. -/
def keyHere (parent : Int) (fuel : Nat) (p : Place) : Option (Node × Place) :=
  let start := p.rest
  match (if hasProperties start then properties ⟨none, none⟩ start.length start
    else some (⟨none, none⟩, start)) with
  | none => none
  | some (props, rest) =>
    let found : Option (Node × Place) :=
      match rest with
      | [] => none
      | m :: after =>
        if m.char = '*' then
          let (w, after) := bareWord after
          (p.remembered? (String.ofList w)).map fun n => (n, p.goTo after)
        else if m.char = '[' ∨ m.char = '\x7b' then
          (flowContent parent none fuel (p.goTo rest)).map fun (n, _, q) => (n, q)
        else if m.char = '"' ∨ m.char = '\'' then
          (Scalar.quoted p.floor rest).map fun (cs, after) =>
            (.ofScalar false props.tag cs, p.goTo after)
        else if signHere ':' rest ∧ hasProperties start then
          some (.ofScalar true props.tag [], p.goTo rest)
        else
          (Scalar.plain false parent true rest).map fun (cs, after) =>
            (.ofScalar true props.tag cs, p.goTo after)
    match found with
    | none => none
    | some (n, q) =>
      let colon := skipSpaces q.rest
      if signHere ':' colon ∧ isShort start q.rest then
        some (n, (q.goTo (colon.drop 1)).note props.name n)
      else none

/-- Ends the line behind a node. -/
def closeLine (n : Node) (p : Place) : Option (Node × Place) :=
  (lineEnd p.rest).map fun rest => (n, p.goTo rest)

/-- A scalar, flow collection or named node that stands in a block at column `parent`. -/
def leaf (parent : Int) (tag : Option Tag) (fuel : Nat) (p : Place) : Option (Node × Place) :=
  match p.rest with
  | [] => none
  | m :: rest =>
    if m.char = '*' then
      let (w, after) := bareWord rest
      (p.remembered? (String.ofList w)).bind fun n => closeLine n (p.goTo after)
    else if m.char = '[' ∨ m.char = '\x7b' then
      (flowContent parent tag fuel p).bind fun (n, _, q) => closeLine n q
    else if m.char = '"' ∨ m.char = '\'' then
      (Scalar.quoted p.floor p.rest).bind fun (cs, after) =>
        closeLine (.ofScalar false tag cs) (p.goTo after)
    else if m.char = '|' ∨ m.char = '>' then
      (Scalar.block (m.char = '>') parent rest).map fun (cs, after) =>
        (.ofScalar false tag cs, p.goTo after)
    else
      (Scalar.plain false parent false p.rest).bind fun (cs, after) =>
        closeLine (.ofScalar true tag cs) (p.goTo after)

/-- Whether what comes next belongs to a block at column `parent`.  The items of a list that is the
value of an entry may stand in the entry's own column. -/
def isInside (parent : Int) (listToo : Bool) (rest : List Mark) : Bool :=
  !atEnd rest ∧ (parent < (columnOf rest : Int) ∨
    (listToo ∧ parent = (columnOf rest : Int) ∧ signHere '-' rest))

mutual

/-- A node in a block at column `parent`, if there is one.  `compact` says that a collection may
begin in the middle of a line. -/
def blockNode (parent : Int) (compact listToo : Bool) : Nat → Place → Option (Node × Place)
  | 0, _ => none
  | fuel + 1, p =>
    match skip p.floor p.rest with
    | none => none
    | some rest =>
      if isInside parent listToo rest then
        blockContent parent compact listToo ⟨none, none⟩ fuel (p.goTo rest)
      else some (.null, p.goTo rest)

/-- A node that begins here, behind its properties. -/
def blockContent (parent : Int) (compact listToo : Bool) (props : Properties) :
    Nat → Place → Option (Node × Place)
  | 0, _ => none
  | fuel + 1, p =>
    let named : Option (Node × Place) → Option (Node × Place) :=
      Option.map fun (n, q) => (n, q.note props.name n)
    let column := columnOf p.rest
    let fresh := compact ∨ p.rest.head?.any (·.leads)
    if fresh ∧ signHere '-' p.rest then
      named ((blockItems column [] fuel p).map fun (items, q) => (.list items, q))
    else if fresh ∧
        (signHere '?' p.rest ∨ signHere ':' p.rest ∨ (keyHere column fuel p).isSome) then
      named ((blockEntries column [] fuel p).map fun (entries, q) => (.map entries, q))
    else if hasProperties p.rest then
      if props.tag.isSome ∨ props.name.isSome then none
      else
        match properties ⟨none, none⟩ p.rest.length p.rest with
        | none => none
        | some (props, rest) =>
          match skip p.floor rest with
          | none => none
          | some rest =>
            if isInside parent listToo rest then
              blockContent parent false listToo props fuel (p.goTo rest)
            else
              let n := Node.ofScalar true props.tag []
              some (n, (p.goTo rest).note props.name n)
    else named (leaf parent props.tag fuel p)

/-- The items of a list in a column. -/
def blockItems (column : Nat) (items : List Node) : Nat → Place → Option (List Node × Place)
  | 0, _ => none
  | fuel + 1, p =>
    let inner := skipSpaces (p.rest.drop 1)
    let deeper := atBreak inner ∨ inner.head?.any fun m => isFlow m.char
    let floor : Int := if deeper then column + 1 else column
    match blockNode column true false fuel { p with rest := p.rest.drop 1, floor } with
    | none => none
    | some (n, q) =>
      match skip column q.rest with
      | none => none
      | some rest =>
        if !atEnd rest ∧ columnOf rest = column ∧ signHere '-' rest then
          blockItems column (items ++ [n]) fuel (q.goTo rest)
        else if !atEnd rest ∧ column < columnOf rest then none
        else some (items ++ [n], q.goTo rest)

/-- The entries of a map in a column. -/
def blockEntries (column : Nat) (entries : List (Node × Node)) :
    Nat → Place → Option (List (Node × Node) × Place)
  | 0, _ => none
  | fuel + 1, p =>
    let below : Int := column + 1
    let inner : Place := { p with floor := below }
    let entry : Option (Node × Node × Place) :=
      if signHere '?' p.rest then
        match blockNode column true true fuel (inner.goTo (p.rest.drop 1)) with
        | none => none
        | some (k, q) =>
          match skip column q.rest with
          | none => none
          | some rest =>
            if columnOf rest = column ∧ signHere ':' rest then
              (blockNode column true true fuel { q with rest := rest.drop 1, floor := below }).map
                fun (v, q) => (k, v, q)
            else some (k, .null, q.goTo rest)
      else if signHere ':' p.rest then
        (blockNode column true true fuel (inner.goTo (p.rest.drop 1))).map fun (v, q) =>
          (.null, v, q)
      else
        match keyHere column fuel { p with floor := column } with
        | none => none
        | some (k, q) =>
          (blockNode column false true fuel { q with floor := below }).map fun (v, q) => (k, v, q)
    match entry with
    | none => none
    | some (k, v, q) =>
      match extend? entries k v, skip column q.rest with
      | some entries, some rest =>
        if atEnd rest ∨ columnOf rest < column then some (entries, q.goTo rest)
        else if columnOf rest = column ∧ rest.head?.any (·.leads) then
          blockEntries column entries fuel (q.goTo rest)
        else none
      | _, _ => none

end

/-! ## Documents -/

/-- Whether a boundary with a given character stands here. -/
def boundaryHere (c : Char) (ms : List Mark) : Bool :=
  atBoundary ms ∧ ms.head?.any fun m => m.char = c

/-- Whether nothing but the ends of documents is left. -/
def isOver : Nat → List Mark → Bool
  | 0, _ => false
  | fuel + 1, ms =>
    match skip (-1) ms with
    | none => false
    | some [] => true
    | some rest =>
      match boundaryHere '.' rest, lineEnd (rest.drop 3) with
      | true, some after => isOver fuel after
      | _, _ => false

/-- The node of a document and whether it is the only one; none if there is no document. -/
def documents (fuel : Nat) (directed : Bool) : Nat → List Mark → Option (Option Node)
  | 0, _ => none
  | lines + 1, ms =>
    let read (compact : Bool) (ms : List Mark) : Option (Option Node) :=
      match blockNode (-1) compact false fuel ⟨ms, [], -1⟩ with
      | some (n, q) => if isOver (q.rest.length + 1) q.rest then some (some n) else none
      | none => none
    match skip (-1) ms with
    | none => none
    | some [] => if directed then none else some none
    | some (m :: rest) =>
      if boundaryHere '-' (m :: rest) then read false (rest.drop 2)
      else if boundaryHere '.' (m :: rest) then
        if directed then none
        else
          match lineEnd (rest.drop 2) with
          | some after => documents fuel false lines after
          | none => none
      else if m.char = '%' ∧ m.column = 0 then documents fuel true lines (skipLine rest)
      else if directed then none
      else read true (m :: rest)

/-- Reads a text that holds at most one document. -/
def read? (text : String) : Option (Option Node) :=
  let ms := Mark.ofText text
  documents (8 * ms.length + 16) false (ms.length + 1) ms

end LightingDesk.Yaml
