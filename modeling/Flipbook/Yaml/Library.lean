import Flipbook.Config.Setting
import Flipbook.Text.Utf8

namespace Flipbook.Yaml

structure Document where
  value : Setting
  store : Store

/-- Why a text gives no document: an error with a message, or one of another kind, such as that of a day that no
    month has. -/
inductive Fault
  | refused (message : Text)
  | stray
  deriving DecidableEq, Repr

def Fault.message? : Fault → Option Text
  | refused message => some message
  | stray => none

/-- A reader of documents. Of a file that is no text it may find a fault before the characters end. -/
class Library where
  document : Text → Except Fault Document
  early? : Text.Bytes → Option Fault

end Flipbook.Yaml
