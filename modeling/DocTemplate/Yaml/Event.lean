import DocTemplate.Yaml.Tag
import DocTemplate.Yaml.Token

/-!
# The events of a YAML document

A document as a sequence of events: scalars and aliases, and the beginnings and ends of collections.
Events come from tokens by a stack of goals, each a thing that is to be read next. A goal takes
tokens, adds events and puts other goals in its place. One that takes no token gives way to goals
that weigh less, and one that takes a token to goals that are heavier by less than a token counts, so
that the reading ends.
-/

namespace DocTemplate.Yaml

/-- What may stand before a node. -/
structure Properties where
  /-- The name under which the node can be repeated. -/
  anchor : Option String
  /-- The tag of the node. -/
  tag : Option Tag

/-- An event. -/
inductive Event where
  /-- The repetition of a node. -/
  | alias (name : String)
  /-- A scalar. -/
  | scalar (properties : Properties) (text : String) (style : ScalarStyle)
  /-- The beginning of a sequence. -/
  | sequenceStart (properties : Properties)
  /-- The end of a sequence. -/
  | sequenceEnd
  /-- The beginning of a mapping. -/
  | mappingStart (properties : Properties)
  /-- The end of a mapping. -/
  | mappingEnd

namespace Properties

/-- No properties. -/
def none : Properties := ⟨.none, .none⟩

/-- Whether there is neither an anchor nor a tag. -/
def isNone (p : Properties) : Bool :=
  p.anchor.isNone && p.tag.isNone

end Properties

namespace Event

/-- The scalar that stands where a node is missing. -/
def missing : Event := .scalar .none "" .plain

/-- The meanings of the handles of tags. -/
abbrev Handles := List (String × List UInt8)

/-- The meanings that handles have without a directive. -/
def standardHandles : Handles :=
  [("!", Tag.asciiBytes "!"), ("!!", Tag.standardBytes)]

/-- A tag with its handle resolved. -/
def resolveTag (handles : Handles) (handle : String) (suffix : List UInt8) : Option Tag :=
  if handle.isEmpty then some (.ofBytes suffix)
  else (handles.lookup handle).map fun meaning => .ofBytes (meaning ++ suffix)

/-- The properties at the front of tokens, an anchor and a tag in any order, and the other tokens. -/
def splitProperties (handles : Handles) : List Token → Option (Properties × List Token)
  | .anchor name :: .tag handle suffix :: rest =>
    (resolveTag handles handle suffix).map fun tag => (⟨some name, some tag⟩, rest)
  | .anchor name :: rest => some (⟨some name, none⟩, rest)
  | .tag handle suffix :: .anchor name :: rest =>
    (resolveTag handles handle suffix).map fun tag => (⟨some name, some tag⟩, rest)
  | .tag handle suffix :: rest =>
    (resolveTag handles handle suffix).map fun tag => (⟨none, some tag⟩, rest)
  | rest => some (.none, rest)

theorem length_splitProperties_le {handles : Handles} {tokens rest : List Token}
    {p : Properties} (h : splitProperties handles tokens = some (p, rest)) :
    rest.length ≤ tokens.length := by
  revert h
  fun_cases splitProperties handles tokens <;>
    simp_all only [Option.map_eq_some_iff, Option.some.injEq, Prod.mk.injEq, List.length_cons]
  all_goals
    intro h
    obtain ⟨_, _, _, rfl⟩ := h
    omega

theorem length_splitProperties_lt {handles : Handles} {tokens rest : List Token}
    {p : Properties} (h : splitProperties handles tokens = some (p, rest))
    (hp : p.isNone = false) : rest.length < tokens.length := by
  revert h
  fun_cases splitProperties handles tokens <;>
    simp_all only [Option.map_eq_some_iff, Option.some.injEq, Prod.mk.injEq, List.length_cons]
  all_goals intro h
  all_goals first
    | (obtain ⟨_, _, _, rfl⟩ := h; omega)
    | (obtain ⟨rfl, rfl⟩ := h; first | omega | simp [Properties.isNone, Properties.none] at hp)

/-! ### Goals -/

/-- Where a node stands. -/
inductive Place where
  /-- Between brackets. -/
  | flow
  /-- Outside brackets. -/
  | block
  /-- In a field outside brackets, where a sequence needs no indentation of its own. -/
  | field
deriving DecidableEq

/-- A thing that is to be read. -/
inductive Goal where
  /-- A node. -/
  | node (place : Place)
  /-- The items of an indented sequence. -/
  | blockItems
  /-- The items of a sequence without indentation of its own. -/
  | fieldItems
  /-- The keys of an indented mapping and what follows. -/
  | blockKeys
  /-- The value after a key of an indented mapping. -/
  | blockValue
  /-- The items of a sequence between brackets; the first has no comma before it. -/
  | flowItems (first : Bool)
  /-- The key of a mapping of one entry that is an item between brackets. -/
  | pairKey
  /-- The value of such a mapping. -/
  | pairValue
  /-- The end of such a mapping. -/
  | pairEnd
  /-- The keys of a mapping between brackets and what follows; the first has no comma before it. -/
  | flowKeys (first : Bool)
  /-- The value after a key of a mapping between brackets. -/
  | flowValue
  /-- The missing value after a key of a mapping between brackets. -/
  | noValue

/-- The weight of a goal. -/
def Goal.weight : Goal → Nat
  | .node _ => 2
  | .blockValue => 2
  | .pairValue => 2
  | .flowValue => 2
  | .noValue => 2
  | .flowItems true => 4
  | .pairKey => 5
  | .flowKeys true => 5
  | _ => 1

/-- The weight of goals together. -/
def weights : List Goal → Nat
  | [] => 0
  | goal :: rest => goal.weight + weights rest

/-- Whether a node of a mapping outside brackets is missing before tokens. -/
def lacksField : List Token → Bool
  | .key :: _ => true
  | .value :: _ => true
  | .blockEnd :: _ => true
  | _ => false

/-- Whether an item outside brackets is missing before tokens. -/
def lacksItem : List Token → Bool
  | .blockEntry :: _ => true
  | .blockEnd :: _ => true
  | _ => false

/-- Whether a node of a mapping between brackets is missing before tokens. -/
def lacksFlowField : List Token → Bool
  | .flowEntry :: _ => true
  | .flowMappingEnd :: _ => true
  | _ => false

/-- Whether a node of a mapping of one entry between brackets is missing before tokens. -/
def lacksPairField : List Token → Bool
  | .flowEntry :: _ => true
  | .flowSequenceEnd :: _ => true
  | _ => false

/-- Whether the colon before a value comes next. -/
def atValue : List Token → Bool
  | .value :: _ => true
  | _ => false

/-- Reach goals. The events so far are given last first. -/
def run (handles : Handles) (events : List Event) (goals : List Goal) (tokens : List Token) :
    Option (List Event × List Token) :=
  match goals, tokens with
  | [], tokens => some (events, tokens)
  | .node _ :: goals, .alias name :: tokens => run handles (.alias name :: events) goals tokens
  | .node place :: goals, tokens =>
    match _h : splitProperties handles tokens with
    | none => none
    | some (p, .scalar text style :: rest) =>
      run handles (.scalar p text style :: events) goals rest
    | some (p, .flowSequenceStart :: rest) =>
      run handles (.sequenceStart p :: events) (.flowItems true :: goals) rest
    | some (p, .flowMappingStart :: rest) =>
      run handles (.mappingStart p :: events) (.flowKeys true :: goals) rest
    | some (p, rest) =>
      match rest, place with
      | .blockSequenceStart :: rest, .block =>
        run handles (.sequenceStart p :: events) (.blockItems :: goals) rest
      | .blockSequenceStart :: rest, .field =>
        run handles (.sequenceStart p :: events) (.blockItems :: goals) rest
      | .blockMappingStart :: rest, .block =>
        run handles (.mappingStart p :: events) (.blockKeys :: goals) rest
      | .blockMappingStart :: rest, .field =>
        run handles (.mappingStart p :: events) (.blockKeys :: goals) rest
      | .blockEntry :: rest, .field =>
        run handles (.sequenceStart p :: events) (.fieldItems :: goals) (.blockEntry :: rest)
      | rest, _ =>
        if _hp : p.isNone then none else run handles (.scalar p "" .plain :: events) goals rest
  | .blockItems :: goals, .blockEntry :: tokens =>
    if lacksItem tokens then run handles (missing :: events) (.blockItems :: goals) tokens
    else run handles events (.node .block :: .blockItems :: goals) tokens
  | .blockItems :: goals, .blockEnd :: tokens => run handles (.sequenceEnd :: events) goals tokens
  | .blockItems :: _, _ => none
  | .fieldItems :: goals, .blockEntry :: tokens =>
    if lacksItem tokens || lacksField tokens then
      run handles (missing :: events) (.fieldItems :: goals) tokens
    else run handles events (.node .block :: .fieldItems :: goals) tokens
  | .fieldItems :: goals, tokens => run handles (.sequenceEnd :: events) goals tokens
  | .blockKeys :: goals, .key :: tokens =>
    if lacksField tokens then run handles (missing :: events) (.blockValue :: goals) tokens
    else run handles events (.node .field :: .blockValue :: goals) tokens
  | .blockKeys :: goals, .blockEnd :: tokens => run handles (.mappingEnd :: events) goals tokens
  | .blockKeys :: _, _ => none
  | .blockValue :: goals, .value :: tokens =>
    if lacksField tokens then run handles (missing :: events) (.blockKeys :: goals) tokens
    else run handles events (.node .field :: .blockKeys :: goals) tokens
  | .blockValue :: goals, tokens => run handles (missing :: events) (.blockKeys :: goals) tokens
  | .flowItems _ :: goals, .flowSequenceEnd :: tokens =>
    run handles (.sequenceEnd :: events) goals tokens
  | .flowItems true :: goals, .key :: tokens =>
    run handles (.mappingStart .none :: events) (.pairKey :: .flowItems false :: goals) tokens
  | .flowItems true :: goals, tokens =>
    run handles events (.node .flow :: .flowItems false :: goals) tokens
  | .flowItems false :: goals, .flowEntry :: .flowSequenceEnd :: tokens =>
    run handles (.sequenceEnd :: events) goals tokens
  | .flowItems false :: goals, .flowEntry :: .key :: tokens =>
    run handles (.mappingStart .none :: events) (.pairKey :: .flowItems false :: goals) tokens
  | .flowItems false :: goals, .flowEntry :: tokens =>
    run handles events (.node .flow :: .flowItems false :: goals) tokens
  | .flowItems false :: _, _ => none
  | .pairKey :: goals, token :: tokens =>
    if lacksPairField (token :: tokens) || atValue (token :: tokens) then
      run handles (missing :: events) (.pairValue :: goals) tokens
    else run handles events (.node .flow :: .pairValue :: goals) (token :: tokens)
  | .pairKey :: _, [] => none
  | .pairValue :: goals, .value :: tokens =>
    if lacksPairField tokens then run handles (missing :: events) (.pairEnd :: goals) tokens
    else run handles events (.node .flow :: .pairEnd :: goals) tokens
  | .pairValue :: goals, tokens => run handles (missing :: events) (.pairEnd :: goals) tokens
  | .pairEnd :: goals, tokens => run handles (.mappingEnd :: events) goals tokens
  | .flowKeys _ :: goals, .flowMappingEnd :: tokens =>
    run handles (.mappingEnd :: events) goals tokens
  | .flowKeys true :: goals, .key :: tokens =>
    if lacksFlowField tokens || atValue tokens then
      run handles (missing :: events) (.flowValue :: goals) tokens
    else run handles events (.node .flow :: .flowValue :: goals) tokens
  | .flowKeys true :: goals, tokens =>
    run handles events (.node .flow :: .noValue :: goals) tokens
  | .flowKeys false :: goals, .flowEntry :: .flowMappingEnd :: tokens =>
    run handles (.mappingEnd :: events) goals tokens
  | .flowKeys false :: goals, .flowEntry :: .key :: tokens =>
    if lacksFlowField tokens || atValue tokens then
      run handles (missing :: events) (.flowValue :: goals) tokens
    else run handles events (.node .flow :: .flowValue :: goals) tokens
  | .flowKeys false :: goals, .flowEntry :: tokens =>
    run handles events (.node .flow :: .noValue :: goals) tokens
  | .flowKeys false :: _, _ => none
  | .flowValue :: goals, .value :: tokens =>
    if lacksFlowField tokens then run handles (missing :: events) (.flowKeys false :: goals) tokens
    else run handles events (.node .flow :: .flowKeys false :: goals) tokens
  | .flowValue :: goals, tokens => run handles (missing :: events) (.flowKeys false :: goals) tokens
  | .noValue :: goals, tokens => run handles (missing :: events) (.flowKeys false :: goals) tokens
termination_by 8 * tokens.length + weights goals
decreasing_by
  all_goals simp only [weights, Goal.weight, List.length_cons]
  all_goals first
    | omega
    | (have hle := length_splitProperties_le _h
       simp only [List.length_cons] at hle
       omega)
    | (have hlt := length_splitProperties_lt _h (by simpa using _hp)
       omega)

/-! ### Documents -/

/-- Whether a directive or the mark of a document comes first. -/
def beginsExplicitly : List Token → Bool
  | .versionDirective _ _ :: _ => true
  | .tagDirective _ _ :: _ => true
  | .documentStart :: _ => true
  | _ => false

/-- Read the directives of a document, given whether there was one with a version and which handles
have a meaning. -/
def readDirectives (versioned : Bool) (handles : Handles) :
    List Token → Option (Handles × List Token)
  | .versionDirective major minor :: tokens =>
    if versioned || major != 1 || (minor != 1 && minor != 2) then none
    else readDirectives true handles tokens
  | .tagDirective handle meaning :: tokens =>
    if (handles.lookup handle).isSome then none
    else readDirectives versioned ((handle, meaning) :: handles) tokens
  | .documentStart :: tokens => some (handles, tokens)
  | _ => none

/-- Whether nothing stands between the mark of a document and what follows the document. -/
def lacksContent : List Token → Bool
  | [] => true
  | .documentEnd :: _ => true
  | tokens => beginsExplicitly tokens

/-- Whether a token is the mark that ends a document. -/
def isDocumentEnd : Token → Bool
  | .documentEnd => true
  | _ => false

/-- The events of the only document of tokens, none if there is no document; nothing at all if the
tokens are not well formed or make up several documents. -/
def ofTokens? (tokens : List Token) : Option (List Event) := do
  if tokens.isEmpty then return []
  let (events, rest) ←
    if beginsExplicitly tokens then do
      let (handles, tokens) ← readDirectives false [] tokens
      if lacksContent tokens then pure ([missing], tokens)
      else run (handles ++ standardHandles) [] [.node .block] tokens
    else run standardHandles [] [.node .block] tokens
  if (rest.dropWhile isDocumentEnd).isEmpty then return events.reverse else none

end Event

end DocTemplate.Yaml
