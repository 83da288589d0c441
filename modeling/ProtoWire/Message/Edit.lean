import ProtoWire.Value

/-! # Changing messages

A message nested in repeated message fields is reached by the path of its places. Changing it
leaves the messages around it, and what they remember, as they are.
-/

namespace ProtoWire

namespace Value

/-- The message that a value is. -/
def asMessage? : Value → Option Message
  | .message content => some content
  | _ => none

/-- The value with a change made to it if it is a message. -/
def mapMessage (change : Message → Message) : Value → Value
  | .message content => .message (change content)
  | value => value

end Value

namespace Message

/-- The message reached by a path through the repeated message field at `entry`. -/
def descend? (entry : Nat) : (path : List Nat) → Message → Option Message
  | [], message => some message
  | place :: path, message =>
      match message.contents[entry]? with
      | some (.repeated values) => do
          descend? entry path (← (← values[place]?).asMessage?)
      | _ => none

/-- The message with a change made to the content at `entry`. -/
def modifyContent (entry : Nat) (change : Content → Content) (message : Message) : Message :=
  message.withContents (message.contents.modify entry change)

/-- The message with a change made where a path through the field at `entry` leads. -/
def modifyAt (entry : Nat) (change : Message → Message) : (path : List Nat) → Message → Message
  | [], message => change message
  | place :: path, message => message.modifyContent entry fun
      | .repeated values =>
          .repeated (values.modify place (·.mapMessage (modifyAt entry change path)))
      | content => content

/-- The message with text appended to the string field at `entry`. -/
def appendText (entry : Nat) (text : String) : Message → Message :=
  modifyContent entry fun
    | .singular (.scalar (.string held)) => .singular (.scalar (.string (held ++ text)))
    | content => content

/-- The message with a value appended to the repeated field at `entry`. -/
def appendElement (entry : Nat) (value : Value) : Message → Message :=
  modifyContent entry fun
    | .repeated values => .repeated (values ++ [value])
    | content => content

/-- The message with its own remembered size forgotten. -/
def invalidate (message : Message) : Message := message.withCache message.cache.invalidate

end Message

end ProtoWire
