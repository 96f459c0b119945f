/-
# Script.Module.Standard -- the module that comes with the language

The functions of module `std` are written in the language itself.  An import brings
in one function, so none of them calls another.
-/
namespace Script.Module

set_option autoImplicit false

/-- The lines of module `std`. -/
def standardLines : List String := [
  "// Lull standard library.",
  "//",
  "// Importing brings in a single function, so nothing here calls another",
  "// function of this module.",
  "",
  "// Sorts a list in place and returns it.",
  "fun sort(items) \x7b",
  "    var n = size(items)",
  "    for (var i = 0; i < n; i = i + 1) \x7b",
  "        for (var j = 0; j < n - i - 1; j = j + 1) \x7b",
  "            if (items[j] > items[j + 1]) \x7b",
  "                var tmp = items[j]",
  "                items[j] = items[j + 1]",
  "                items[j + 1] = tmp",
  "            \x7d",
  "        \x7d",
  "    \x7d",
  "    return items",
  "\x7d",
  "",
  "// The characters of a string in ascending order.",
  "fun sortString(text) \x7b",
  "    var chars = []",
  "    for (var i = 0; i < size(text); i = i + 1) \x7b",
  "        chars = chars + [text[i]]",
  "    \x7d",
  "    var n = size(chars)",
  "    for (var i = 0; i < n; i = i + 1) \x7b",
  "        for (var j = 0; j < n - i - 1; j = j + 1) \x7b",
  "            if (chars[j] > chars[j + 1]) \x7b",
  "                var tmp = chars[j]",
  "                chars[j] = chars[j + 1]",
  "                chars[j + 1] = tmp",
  "            \x7d",
  "        \x7d",
  "    \x7d",
  "    var result = \"\"",
  "    for (var i = 0; i < n; i = i + 1) \x7b",
  "        result = result + chars[i]",
  "    \x7d",
  "    return result",
  "\x7d",
  "",
  "// The first n Fibonacci numbers.",
  "fun fibonacci(n) \x7b",
  "    var result = []",
  "    var a = 0",
  "    var b = 1",
  "    for (var i = 0; i < n; i = i + 1) \x7b",
  "        result = result + [a]",
  "        var next = a + b",
  "        a = b",
  "        b = next",
  "    \x7d",
  "    return result",
  "\x7d",
  "",
  "fun maxElement(items) \x7b",
  "    if (size(items) == 0) \x7b",
  "        return null",
  "    \x7d",
  "    var best = items[0]",
  "    for (var i = 1; i < size(items); i = i + 1) \x7b",
  "        if (items[i] > best) \x7b",
  "            best = items[i]",
  "        \x7d",
  "    \x7d",
  "    return best",
  "\x7d",
  "",
  "// Reversed copy. Strings stay strings.",
  "fun reverseList(items) \x7b",
  "    var text = typeOf(items) == STRING",
  "    var result = []",
  "    if (text) \x7b",
  "        result = \"\"",
  "    \x7d",
  "    for (var i = size(items) - 1; i >= 0; i = i - 1) \x7b",
  "        if (text) \x7b",
  "            result = result + items[i]",
  "        \x7d else \x7b",
  "            result = result + [items[i]]",
  "        \x7d",
  "    \x7d",
  "    return result",
  "\x7d",
  "",
  "// First occurrence of each element, in order. Strings stay strings.",
  "fun uniqueList(items) \x7b",
  "    var text = typeOf(items) == STRING",
  "    var result = []",
  "    if (text) \x7b",
  "        result = \"\"",
  "    \x7d",
  "    for (var i = 0; i < size(items); i = i + 1) \x7b",
  "        var seen = false",
  "        for (var j = 0; j < size(result); j = j + 1) \x7b",
  "            if (result[j] == items[i]) \x7b",
  "                seen = true",
  "            \x7d",
  "        \x7d",
  "        if (!seen) \x7b",
  "            if (text) \x7b",
  "                result = result + items[i]",
  "            \x7d else \x7b",
  "                result = result + [items[i]]",
  "            \x7d",
  "        \x7d",
  "    \x7d",
  "    return result",
  "\x7d",
  "",
  "fun contains(items, target) \x7b",
  "    for (var i = 0; i < size(items); i = i + 1) \x7b",
  "        if (items[i] == target) \x7b",
  "            return true",
  "        \x7d",
  "    \x7d",
  "    return false",
  "\x7d",
  "",
  "fun indexOf(items, target) \x7b",
  "    for (var i = 0; i < size(items); i = i + 1) \x7b",
  "        if (items[i] == target) \x7b",
  "            return i",
  "        \x7d",
  "    \x7d",
  "    return -1",
  "\x7d",
  "",
  "fun upperCase(text) \x7b",
  "    var result = \"\"",
  "    for (var i = 0; i < size(text); i = i + 1) \x7b",
  "        var c = text[i]",
  "        if (c >= \"a\" & c <= \"z\") \x7b",
  "            c = toString(toNumber(c) - 32)",
  "        \x7d",
  "        result = result + c",
  "    \x7d",
  "    return result",
  "\x7d",
  "",
  "fun lowerCase(text) \x7b",
  "    var result = \"\"",
  "    for (var i = 0; i < size(text); i = i + 1) \x7b",
  "        var c = text[i]",
  "        if (c >= \"A\" & c <= \"Z\") \x7b",
  "            c = toString(toNumber(c) + 32)",
  "        \x7d",
  "        result = result + c",
  "    \x7d",
  "    return result",
  "\x7d",
  "",
  "// Drops leading and trailing whitespace and control characters.",
  "fun trim(text) \x7b",
  "    var start = 0",
  "    var end = size(text) - 1",
  "    var moving = true",
  "    for (; moving;) \x7b",
  "        moving = false",
  "        if (start <= end) \x7b",
  "            if (toNumber(text[start]) <= 32) \x7b",
  "                start = start + 1",
  "                moving = true",
  "            \x7d",
  "        \x7d",
  "    \x7d",
  "    moving = true",
  "    for (; moving;) \x7b",
  "        moving = false",
  "        if (end >= start) \x7b",
  "            if (toNumber(text[end]) <= 32) \x7b",
  "                end = end - 1",
  "                moving = true",
  "            \x7d",
  "        \x7d",
  "    \x7d",
  "    var result = \"\"",
  "    for (var i = start; i <= end; i = i + 1) \x7b",
  "        result = result + text[i]",
  "    \x7d",
  "    return result",
  "\x7d",
  "",
  "fun stringToList(text) \x7b",
  "    var result = []",
  "    for (var i = 0; i < size(text); i = i + 1) \x7b",
  "        result = result + [text[i]]",
  "    \x7d",
  "    return result",
  "\x7d",
  "",
  "fun listToString(items) \x7b",
  "    var result = \"\"",
  "    for (var i = 0; i < size(items); i = i + 1) \x7b",
  "        result = result + items[i]",
  "    \x7d",
  "    return result",
  "\x7d",
  "",
  "fun isEven(n) \x7b",
  "    return n % 2 == 0",
  "\x7d",
  "",
  "fun map(items, f) \x7b",
  "    var result = []",
  "    for (var i = 0; i < size(items); i = i + 1) \x7b",
  "        result = result + [f(items[i])]",
  "    \x7d",
  "    return result",
  "\x7d",
  "",
  "// Elements for which f returns a truthy value.",
  "fun filter(items, f) \x7b",
  "    var result = []",
  "    for (var i = 0; i < size(items); i = i + 1) \x7b",
  "        if (f(items[i])) \x7b",
  "            result = result + [items[i]]",
  "        \x7d",
  "    \x7d",
  "    return result",
  "\x7d"]

/-- The source text of module `std`. -/
def standardText : String :=
  String.join (standardLines.map (· ++ "\n"))

end Script.Module
