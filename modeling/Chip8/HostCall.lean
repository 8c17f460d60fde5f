import Chip8.Value

/-!
# Calls to the host

What the emulator asks of the libraries it shows pictures, plays sounds and
reads keys with, one constructor a call. The calls are recorded in order; three
resources are taken and released by them, the window, the terminal and the
mixer.
-/

namespace Chip8

/-- A call to a host library. -/
inductive HostCall
  /-- Takes the window. -/
  | openDisplay
  | setMode (width height : Value)
  | setCaption (title : String)
  /-- Makes a picture of rows of three-byte pixels. -/
  | picture (bytes : Nat) (width height : Int)
  | scalePicture (width height : Value)
  | blit
  | flip
  /-- Releases the window. -/
  | closeDisplay
  | prepareMixer (frequency bits channels buffer : Nat)
  /-- Takes the mixer. -/
  | openMixer
  | makeSound (bytes : Nat)
  | setVolume (volume : Float)
  | playSound
  | stopSound
  /-- Releases the mixer. -/
  | closeMixer
  /-- Takes the terminal. -/
  | openTerminal
  | noEcho
  | characterMode
  | lineMode
  | echo
  | setCursor (mode : Value)
  | beep
  | newPad (height width : Int)
  | readSize
  | clearScreen
  | resizeTerminal (height width : Int)
  | refreshScreen
  /-- Shows the pad from its top left corner on, up to a row and a column. -/
  | showPad (lastRow lastColumn : Int)
  | write (row column : Int) (text : String) (reversed : Bool)
  /-- Releases the terminal. -/
  | closeTerminal

end Chip8
