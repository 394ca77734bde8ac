import Chunkwise.Fault
import Chunkwise.Text.Newlines
import Chunkwise.Text.Utf8

namespace Chunkwise

inductive Content where
  | bytes (b : ByteArray)
  | folder
  | unreadable

namespace Content

def isFolder : Content → Bool
  | folder => true
  | _ => false

def folderSize : Nat := 4096

def size : Content → Nat
  | bytes b => b.size
  | folder => folderSize
  | unreadable => 0

def text : Content → Except Fault Text
  | bytes b => .ok (Utf8.decode b).unifyNewlines
  | folder => .error (.file .isFolder)
  | unreadable => .error (.file .unreadable)

end Content

abbrev Source := Except Fault Content

namespace Source

def text (s : Source) : Except Fault Text :=
  s.bind Content.text

def size (s : Source) : Except Fault Nat :=
  s.map Content.size

end Source

end Chunkwise
