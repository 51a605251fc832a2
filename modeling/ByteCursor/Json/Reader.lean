import ByteCursor.Json.Value

set_option autoImplicit false

namespace ByteCursor.Json.Value

-- What came before the value being read stands latest first.
inductive Frame
  | array (before : List Value)
  | object (before : List (List Piece × Value)) (key : List Piece)

inductive Reader
  | valueDue (frames : List Frame)
  | firstItem (frames : List Frame)
  | firstKey (frames : List Frame)
  | nextKey (before : List (List Piece × Value)) (frames : List Frame)
  | colonDue (before : List (List Piece × Value)) (key : List Piece) (frames : List Frame)
  | ended (value : Value) (frames : List Frame)

namespace Reader

def start (frames : List Frame) : Token → Option Reader
  | .null => some (ended .null frames)
  | .bool b => some (ended (.bool b) frames)
  | .number n => some (ended (.number n) frames)
  | .string ps => some (ended (.string ps) frames)
  | .openBracket => some (firstItem frames)
  | .openBrace => some (firstKey frames)
  | _ => none

def step : Reader → Token → Option Reader
  | valueDue frames, token => start frames token
  | firstItem frames, .closeBracket => some (ended (.array []) frames)
  | firstItem frames, token => start (.array [] :: frames) token
  | firstKey frames, .closeBrace => some (ended (.object []) frames)
  | firstKey frames, .string key => some (colonDue [] key frames)
  | nextKey before frames, .string key => some (colonDue before key frames)
  | colonDue before key frames, .colon => some (valueDue (.object before key :: frames))
  | ended item (.array before :: frames), .comma =>
      some (valueDue (.array (item :: before) :: frames))
  | ended item (.array before :: frames), .closeBracket =>
      some (ended (.array (item :: before).reverse) frames)
  | ended value (.object before key :: frames), .comma =>
      some (nextKey ((key, value) :: before) frames)
  | ended value (.object before key :: frames), .closeBrace =>
      some (ended (.object ((key, value) :: before).reverse) frames)
  | _, _ => none

end Reader

def ofTokens? (tokens : List Token) : Option Value :=
  match tokens.foldlM Reader.step (.valueDue []) with
  | some (.ended value []) => some value
  | _ => none

mutual

theorem foldlM_tokens (v : Value) (frames : List Frame) (rest : List Token) :
    (v.tokens ++ rest).foldlM Reader.step (.valueDue frames) =
      rest.foldlM Reader.step (.ended v frames) := by
  match v with
  | null | bool _ | number _ | string _ | array [] | object [] =>
      simp [tokens, Reader.step, Reader.start]
  | array (item :: items) =>
      have opened : (item.tokens ++ (moreItems items ++ rest)).foldlM Reader.step
            (.firstItem frames) =
          (item.tokens ++ (moreItems items ++ rest)).foldlM Reader.step
            (.valueDue (.array [] :: frames)) := by
        cases item with
        | array inner => cases inner <;> simp [tokens, Reader.step]
        | object inner => rcases inner with _ | ⟨⟨_, _⟩, _⟩ <;> simp [tokens, Reader.step]
        | _ => simp [tokens, Reader.step]
      have first := foldlM_tokens item (.array [] :: frames) (moreItems items ++ rest)
      have others := foldlM_moreItems items [] item frames rest
      simp_all [tokens, Reader.step, Reader.start]
  | object ((key, value) :: members) =>
      have first := foldlM_tokens value (.object [] key :: frames) (moreMembers members ++ rest)
      have others := foldlM_moreMembers members [] key value frames rest
      simp_all [tokens, Reader.step, Reader.start]

theorem foldlM_moreItems (items before : List Value) (item : Value) (frames : List Frame)
    (rest : List Token) :
    (moreItems items ++ rest).foldlM Reader.step (.ended item (.array before :: frames)) =
      rest.foldlM Reader.step (.ended (.array ((item :: before).reverse ++ items)) frames) := by
  match items with
  | [] => simp [moreItems, Reader.step]
  | next :: items =>
      have first := foldlM_tokens next (.array (item :: before) :: frames) (moreItems items ++ rest)
      have others := foldlM_moreItems items (item :: before) next frames rest
      simp_all [moreItems, Reader.step]

theorem foldlM_moreMembers (members before : List (List Piece × Value)) (key : List Piece)
    (value : Value) (frames : List Frame) (rest : List Token) :
    (moreMembers members ++ rest).foldlM Reader.step
        (.ended value (.object before key :: frames)) =
      rest.foldlM Reader.step
        (.ended (.object (((key, value) :: before).reverse ++ members)) frames) := by
  match members with
  | [] => simp [moreMembers, Reader.step]
  | (other, next) :: members =>
      have first := foldlM_tokens next (.object ((key, value) :: before) other :: frames)
        (moreMembers members ++ rest)
      have others := foldlM_moreMembers members ((key, value) :: before) other next frames rest
      simp_all [moreMembers, Reader.step]

end

@[simp] theorem ofTokens?_tokens (v : Value) : ofTokens? v.tokens = some v := by
  have read := foldlM_tokens v [] []
  simp only [List.append_nil, List.foldlM_nil] at read
  simp [ofTokens?, read]

def ofText? (text : String) : Option Value := (tokens? text.toList).bind ofTokens?

end ByteCursor.Json.Value
