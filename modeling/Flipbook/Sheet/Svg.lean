import Flipbook.Sheet.Build

namespace Flipbook.Sheet

open Text

def attributeText (name : String) (value : Text) : Text :=
  ' ' :: name.toList ++ '=' :: '"' :: value ++ ['"']

def openTag (name : String) (attributes : List (String × Text)) : Text :=
  '<' :: name.toList ++ attributes.flatMap fun (name, value) => attributeText name value

def rootAttributes (width height : Int) : List (String × Text) := [
  ("baseProfile", "full".toList), ("height", ofInt height), ("version", "1.1".toList), ("width", ofInt width),
  ("xmlns", "http://www.w3.org/2000/svg".toList), ("xmlns:ev", "http://www.w3.org/2001/xml-events".toList),
  ("xmlns:xlink", "http://www.w3.org/1999/xlink".toList)]

def Picture.attributes (picture : Picture) : List (String × Text) := [
  ("height", ofInt picture.tile.height), ("id", picture.id), ("width", ofInt picture.tile.width),
  ("x", ofInt picture.tile.x), ("xlink:href", picture.address), ("y", ofInt picture.tile.y)]

def Picture.text (picture : Picture) : Text := openTag "image" picture.attributes ++ " />".toList

def sheetText (width height : Int) (pictures : List Picture) : Text :=
  openTag "svg" (rootAttributes width height) ++ "><defs />".toList ++ pictures.flatMap Picture.text
    ++ "</svg>".toList

instance : Writer where
  write width height pictures := some (sheetText width height pictures)

end Flipbook.Sheet
