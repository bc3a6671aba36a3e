/-! # Native names

The pseudo-classes, and the pseudo-classes with arguments, that are copied as they
stand; every other name belongs to an engine function. The case of ASCII letters does
not matter.
-/

namespace SelectorLang

theorem toLower_eq_map (text : String) : text.toLower = text.map Char.toLower :=
  rfl

/-- The native pseudo-classes without arguments. -/
def nativeClasses : List String := [
  "active", "any-link", "checked", "blank", "default", "defined", "disabled", "empty", "enabled",
  "first", "first-child", "first-of-type", "fullscreen", "focus", "focus-visible", "focus-within",
  "hover", "indeterminate", "in-range", "invalid", "last-child", "last-of-type", "link",
  "only-child", "only-of-type", "optional", "out-of-range", "placeholder-shown", "read-only",
  "read-write", "required", "root", "target", "valid", "visited"]

/-- The native pseudo-classes with arguments, none of which are selectors. -/
def nativeFunctions : List String :=
  ["dir", "lang", "nth-child", "nth-last-child", "nth-last-of-type", "nth-of-type"]

/-- Whether a name is that of a native pseudo-class. -/
def isNativeClass (name : String) : Bool :=
  nativeClasses.contains name.toLower

/-- Whether a name is that of a native pseudo-class with arguments. -/
def isNativeFunction (name : String) : Bool :=
  nativeFunctions.contains name.toLower

end SelectorLang
