import NetBridge.Base.Bytes

/-!
# Menus and containers

The menus and containers of FTXUI, `src/third_party/FTXUI/src/ftxui/component/menu.cpp:76–345` and
`container.cpp:18–239`, as far as the user interface builds them: which entry a menu has selected
and which component has the focus. What is drawn is left out but for the boxes that the last layout
has given to the components.
-/

namespace NetBridge.Tui

open NetBridge.Base

/-- `Mouse::Button`; `mouse.hpp:20–29`. -/
inductive Button where
  | left
  | middle
  | right
  | none
  | wheelUp
  | wheelDown
  | wheelLeft
  | wheelRight
deriving DecidableEq

/-- `Mouse::Motion`; `mouse.hpp:31–35`. -/
inductive Motion where
  | released
  | pressed
  | moved
deriving DecidableEq

/-- `Mouse` without its coordinates. -/
structure Mouse where
  button : Button := .none
  motion : Motion := .pressed
deriving DecidableEq

/-- `Event`: what the terminal has sent, and the mouse if it was the mouse; `event.hpp:43–145`.
Events are compared by what was sent. -/
structure Event where
  input : Bytes
  mouse : Option Mouse := none
deriving DecidableEq

namespace Event

def arrowLeft : Bytes := [27, 91, 68]
def arrowRight : Bytes := [27, 91, 67]
def arrowUp : Bytes := [27, 91, 65]
def arrowDown : Bytes := [27, 91, 66]
def escape : Bytes := [27]
def enter : Bytes := [10]
def tab : Bytes := [9]
def tabReverse : Bytes := [27, 91, 90]
def home : Bytes := [27, 91, 72]
def toEnd : Bytes := [27, 91, 70]
def pageUp : Bytes := [27, 91, 53, 126]
def pageDown : Bytes := [27, 91, 54, 126]

/-- `Event::Custom`, which the refresh thread posts; `event.cpp:512`. -/
def custom : Event := ⟨[0], none⟩

/-- `Event::Character` of one character. -/
def key (character : String) : Event := ⟨ascii character, none⟩

end Event

/-- `util::clamp`, which allows the upper bound to be lower; `util.hpp:11–13`. -/
def clamp (v lo hi : Int) : Int := if v < lo then lo else if hi < v then hi else v

/-- The two directions of menus that occur. -/
inductive Direction where
  | right
  | down
deriving DecidableEq

/-- What the last layout says of a component: the height of its box, and which of its entries, and
whether it itself, contain the mouse. -/
structure Boxes where
  height : Int := 0
  entry : Nat → Bool := fun _ ↦ false
  inside : Bool := false

/-- What a menu has made of an event: whether it was handled, the selected entry, and whether the
menu takes the focus. -/
structure MenuResult where
  handled : Bool
  selected : Int
  takesFocus : Bool := false
deriving DecidableEq

namespace Menu

/-- `Clamp`, as far as the selected entry goes; `menu.cpp:76–85`. -/
def clamped (size : Nat) (selected : Int) : Int := clamp selected 0 (size - 1)

/-- The keys of a focused menu before the selected entry is clamped; `menu.cpp:241–275`. -/
def press (direction : Direction) (size : Nat) (height : Int) (input : Bytes) (selected : Int) :
    Int :=
  let up := if direction = .down then selected - 1 else selected
  let down := if direction = .down then selected + 1 else selected
  let left := if direction = .right then selected - 1 else selected
  let right := if direction = .right then selected + 1 else selected
  if input = Event.arrowUp ∨ input = ascii "k" then up
  else if input = Event.arrowDown ∨ input = ascii "j" then down
  else if input = Event.arrowLeft ∨ input = ascii "h" then left
  else if input = Event.arrowRight ∨ input = ascii "l" then right
  else if input = Event.pageUp then selected - height
  else if input = Event.pageDown then selected + height
  else if input = Event.home then 0
  else if input = Event.toEnd then size - 1
  else if input = Event.tab ∧ size ≠ 0 then (selected + 1).tmod size
  else if input = Event.tabReverse ∧ size ≠ 0 then (selected + size - 1).tmod size
  else selected

/-- `OnMouseWheel`; `menu.cpp:324–345`. -/
def onMouseWheel (size : Nat) (boxes : Boxes) (button : Button) (selected : Int) : MenuResult :=
  if !boxes.inside then ⟨false, selected, false⟩
  else
    let moved :=
      if button = .wheelUp then selected - 1
      else if button = .wheelDown then selected + 1
      else selected
    ⟨true, clamped size moved, false⟩

/-- `OnMouseEvent`: the first entry under the mouse takes the focus, and a press selects it;
`menu.cpp:291–322`. -/
def onMouseEvent (size : Nat) (boxes : Boxes) (mouse : Mouse) (selected : Int) : MenuResult :=
  if mouse.button = .wheelDown ∨ mouse.button = .wheelUp then
    onMouseWheel size boxes mouse.button selected
  else if mouse.button ≠ .none ∧ mouse.button ≠ .left then ⟨false, selected, false⟩
  else
    match (List.range size).find? boxes.entry with
    | none => ⟨false, selected, false⟩
    | some i =>
      if mouse.button = .left ∧ mouse.motion = .pressed then ⟨true, i, true⟩
      else ⟨false, selected, true⟩

/-- `OnEvent`; `menu.cpp:229–289`. -/
def onEvent (direction : Direction) (size : Nat) (focused : Bool) (boxes : Boxes) (event : Event)
    (selected : Int) : MenuResult :=
  let selected := clamped size selected
  match event.mouse with
  | some mouse => onMouseEvent size boxes mouse selected
  | none =>
    let pressed :=
      if focused then clamped size (press direction size boxes.height event.input selected)
      else selected
    ⟨pressed ≠ selected || event.input = Event.enter, pressed, false⟩

/-- An entry of the menu, or -1 where there is none. -/
def Valid (size : Nat) (selected : Int) : Prop :=
  -1 ≤ selected ∧ (size ≠ 0 → 0 ≤ selected ∧ selected < size)

/-- What is clamped is an entry. -/
theorem valid_clamped (size : Nat) (selected : Int) : Valid size (clamped size selected) := by
  unfold Valid clamped clamp
  split
  · omega
  · split
    · omega
    · omega

/-- Every menu starts with its first entry. -/
theorem valid_zero (size : Nat) : Valid size 0 := by
  unfold Valid
  omega

/-- After an event an entry is selected. -/
theorem valid_onEvent (direction : Direction) (size : Nat) (focused : Bool) (boxes : Boxes)
    (event : Event) (selected : Int) :
    Valid size (onEvent direction size focused boxes event selected).selected := by
  unfold onEvent
  dsimp only
  split
  · next mouse _ =>
    unfold onMouseEvent
    split
    · unfold onMouseWheel
      split
      · exact valid_clamped size selected
      · exact valid_clamped size _
    · split
      · exact valid_clamped size selected
      · split
        · exact valid_clamped size selected
        · next i hfind =>
          split
          · have hlt := List.mem_range.mp (List.mem_of_find?_eq_some hfind)
            unfold Valid
            dsimp only
            omega
          · exact valid_clamped size selected
  · split
    · exact valid_clamped size _
    · exact valid_clamped size selected

end Menu

end NetBridge.Tui
