/-!
# Attributes that nobody wrote

Classes, functions, modules and values have attributes of their own. A table lists for one kind of thing
the attributes that hold something, with what the thing found there documents.
-/

namespace ApiManual.Source

/-- What an attribute that nobody wrote holds. -/
inductive Given where
  | integer
  | text
  /-- A thing of which only the documentation matters. -/
  | thing (doc : Option String)
  deriving DecidableEq, Repr, Inhabited

/-- A thing with documentation of several lines. -/
def said (lines : List String) : Given := .thing (some ("\n".intercalate lines))

def table : Given :=
  said [
      "dict() -> new empty dictionary",
      "dict(mapping) -> new dictionary initialized from a mapping object's",
      "    (key, value) pairs",
      "dict(iterable) -> new dictionary initialized as if via:",
      "    d = \x7b\x7d",
      "    for k, v in iterable:",
      "        d[k] = v",
      "dict(**kwargs) -> new dictionary initialized with the name=value pairs",
      "    in the keyword argument list.  For example:  dict(one=1, two=2)"]

def sequence : Given :=
  said [
      "Built-in immutable sequence.",
      "",
      "If no argument is given, the constructor returns an empty tuple.",
      "If iterable is specified the tuple is initialized from iterable's items.",
      "",
      "If the argument is a tuple, the return value is the same object."]

/-- The attributes that everything has. -/
def commonAttributes : List (String × Given) := [
  ("__delattr__", said ["Implement delattr(self, name)."]),
  ("__dir__", said ["Default dir() implementation."]),
  ("__eq__", said ["Return self==value."]),
  ("__format__", said ["Default object formatter."]),
  ("__ge__", said ["Return self>=value."]),
  ("__getattribute__", said ["Return getattr(self, name)."]),
  ("__getstate__", said ["Helper for pickle."]),
  ("__gt__", said ["Return self>value."]),
  ("__hash__", said ["Return hash(self)."]),
  ("__init__", said ["Initialize self.  See help(type(self)) for accurate signature."]),
  ("__init_subclass__", said [
      "This method is called when a class is subclassed.",
      "",
      "The default implementation does nothing. It may be",
      "overridden to extend subclasses.",
      ""]),
  ("__le__", said ["Return self<=value."]),
  ("__lt__", said ["Return self<value."]),
  ("__ne__", said ["Return self!=value."]),
  ("__new__", said ["Create and return a new object.  See help(type) for accurate signature."]),
  ("__reduce__", said ["Helper for pickle."]),
  ("__reduce_ex__", said ["Helper for pickle."]),
  ("__repr__", said ["Return repr(self)."]),
  ("__setattr__", said ["Implement setattr(self, name, value)."]),
  ("__sizeof__", said ["Size of object in memory, in bytes."]),
  ("__str__", said ["Return str(self)."]),
  ("__subclasshook__", said [
      "Abstract classes can override this to customize issubclass().",
      "",
      "This is invoked early on by abc.ABCMeta.__subclasscheck__().",
      "It should return True, False or NotImplemented.  If it returns",
      "NotImplemented, the normal algorithm is used.  Otherwise, it",
      "overrides the normal algorithm (and the outcome is cached).",
      ""])]

/-- The attributes of a function, beside the common ones. -/
def functionAttributes : List (String × Given) := [
  ("__annotations__", table),
  ("__builtins__", table),
  ("__call__", said ["Call self as a function."]),
  ("__code__", said ["Create a code object.  Not for the faint of heart."]),
  ("__dict__", table),
  ("__get__", said ["Return an attribute of instance, which is of type owner."]),
  ("__globals__", table),
  ("__module__", .text),
  ("__name__", .text),
  ("__qualname__", .text)]

/-- The attributes of a class, beside the common ones. -/
def classAttributes : List (String × Given) := [
  ("__annotations__", table),
  ("__bases__", sequence),
  ("__basicsize__", .integer),
  ("__call__", said ["Call self as a function."]),
  ("__dict__", .thing none),
  ("__dictoffset__", .integer),
  ("__flags__", .integer),
  ("__instancecheck__", said ["Check if an object is an instance."]),
  ("__itemsize__", .integer),
  ("__module__", .text),
  ("__mro__", sequence),
  ("__name__", .text),
  ("__or__", said ["Return self|value."]),
  ("__prepare__", said [
      "__prepare__() -> dict",
      "used to create the namespace for the class statement"]),
  ("__qualname__", .text),
  ("__ror__", said ["Return value|self."]),
  ("__subclasscheck__", said ["Check if a class is a subclass."]),
  ("__subclasses__", said ["Return a list of immediate subclasses."]),
  ("__weakref__", said ["list of weak references to the object"]),
  ("__weakrefoffset__", .integer),
  ("mro", said ["Return a type's method resolution order."])]

/-- The attributes of a module, beside the common ones. -/
def moduleAttributes : List (String × Given) := [
  ("__annotations__", table),
  ("__dict__", table),
  ("__dir__", said ["__dir__() -> list", "specialized dir() implementation"]),
  ("__name__", .text)]

/-- The attributes of a whole number, beside the common ones. -/
def integerAttributes : List (String × Given) := [
  ("__abs__", said ["abs(self)"]),
  ("__add__", said ["Return self+value."]),
  ("__and__", said ["Return self&value."]),
  ("__bool__", said ["True if self else False"]),
  ("__ceil__", said ["Ceiling of an Integral returns itself."]),
  ("__divmod__", said ["Return divmod(self, value)."]),
  ("__float__", said ["float(self)"]),
  ("__floor__", said ["Flooring an Integral returns itself."]),
  ("__floordiv__", said ["Return self//value."]),
  ("__format__", .thing none),
  ("__getnewargs__", .thing none),
  ("__index__", said [
      "Return self converted to an integer, if self is suitable for use as an index into a list."]),
  ("__int__", said ["int(self)"]),
  ("__invert__", said ["~self"]),
  ("__lshift__", said ["Return self<<value."]),
  ("__mod__", said ["Return self%value."]),
  ("__mul__", said ["Return self*value."]),
  ("__neg__", said ["-self"]),
  ("__or__", said ["Return self|value."]),
  ("__pos__", said ["+self"]),
  ("__pow__", said ["Return pow(self, value, mod)."]),
  ("__radd__", said ["Return value+self."]),
  ("__rand__", said ["Return value&self."]),
  ("__rdivmod__", said ["Return divmod(value, self)."]),
  ("__rfloordiv__", said ["Return value//self."]),
  ("__rlshift__", said ["Return value<<self."]),
  ("__rmod__", said ["Return value%self."]),
  ("__rmul__", said ["Return value*self."]),
  ("__ror__", said ["Return value|self."]),
  ("__round__", said [
      "Rounding an Integral returns itself.",
      "",
      "Rounding with an ndigits argument also returns an integer."]),
  ("__rpow__", said ["Return pow(value, self, mod)."]),
  ("__rrshift__", said ["Return value>>self."]),
  ("__rshift__", said ["Return self>>value."]),
  ("__rsub__", said ["Return value-self."]),
  ("__rtruediv__", said ["Return value/self."]),
  ("__rxor__", said ["Return value^self."]),
  ("__sizeof__", said ["Returns size in memory, in bytes."]),
  ("__sub__", said ["Return self-value."]),
  ("__truediv__", said ["Return self/value."]),
  ("__trunc__", said ["Truncating an Integral returns itself."]),
  ("__xor__", said ["Return self^value."]),
  ("as_integer_ratio", said [
      "Return integer ratio.",
      "",
      "Return a pair of integers, whose ratio is exactly equal to the original int",
      "and with a positive denominator.",
      "",
      ">>> (10).as_integer_ratio()",
      "(10, 1)",
      ">>> (-10).as_integer_ratio()",
      "(-10, 1)",
      ">>> (0).as_integer_ratio()",
      "(0, 1)"]),
  ("bit_count", said [
      "Number of ones in the binary representation of the absolute value of self.",
      "",
      "Also known as the population count.",
      "",
      ">>> bin(13)",
      "'0b1101'",
      ">>> (13).bit_count()",
      "3"]),
  ("bit_length", said [
      "Number of bits necessary to represent self in binary.",
      "",
      ">>> bin(37)",
      "'0b100101'",
      ">>> (37).bit_length()",
      "6"]),
  ("conjugate", said ["Returns self, the complex conjugate of any int."]),
  ("denominator", .integer),
  ("from_bytes", said [
      "Return the integer represented by the given array of bytes.",
      "",
      "  bytes",
      "    Holds the array of bytes to convert.  The argument must either",
      "    support the buffer protocol or be an iterable object producing bytes.",
      "    Bytes and bytearray are examples of built-in objects that support the",
      "    buffer protocol.",
      "  byteorder",
      "    The byte order used to represent the integer.  If byteorder is 'big',",
      "    the most significant byte is at the beginning of the byte array.  If",
      "    byteorder is 'little', the most significant byte is at the end of the",
      "    byte array.  To request the native byte order of the host system, use",
      "    `sys.byteorder' as the byte order value.  Default is to use 'big'.",
      "  signed",
      "    Indicates whether two's complement is used to represent the integer."]),
  ("imag", .integer),
  ("numerator", .integer),
  ("real", .integer),
  ("to_bytes", said [
      "Return an array of bytes representing an integer.",
      "",
      "  length",
      "    Length of bytes object to use.  An OverflowError is raised if the",
      "    integer is not representable with the given number of bytes.  Default",
      "    is length 1.",
      "  byteorder",
      "    The byte order used to represent the integer.  If byteorder is 'big',",
      "    the most significant byte is at the beginning of the byte array.  If",
      "    byteorder is 'little', the most significant byte is at the end of the",
      "    byte array.  To request the native byte order of the host system, use",
      "    `sys.byteorder' as the byte order value.  Default is to use 'big'.",
      "  signed",
      "    Determines whether two's complement is used to represent the integer.",
      "    If signed is False and a negative integer is given, an OverflowError",
      "    is raised."])]

/-- The attributes of a text, beside the common ones. -/
def textAttributes : List (String × Given) := [
  ("__add__", said ["Return self+value."]),
  ("__contains__", said ["Return key in self."]),
  ("__format__", said ["Return a formatted version of the string as described by format_spec."]),
  ("__getitem__", said ["Return self[key]."]),
  ("__getnewargs__", .thing none),
  ("__iter__", said ["Implement iter(self)."]),
  ("__len__", said ["Return len(self)."]),
  ("__mod__", said ["Return self%value."]),
  ("__mul__", said ["Return self*value."]),
  ("__rmod__", said ["Return value%self."]),
  ("__rmul__", said ["Return value*self."]),
  ("__sizeof__", said ["Return the size of the string in memory, in bytes."]),
  ("capitalize", said [
      "Return a capitalized version of the string.",
      "",
      "More specifically, make the first character have upper case and the rest lower",
      "case."]),
  ("casefold", said ["Return a version of the string suitable for caseless comparisons."]),
  ("center", said [
      "Return a centered string of length width.",
      "",
      "Padding is done using the specified fill character (default is a space)."]),
  ("count", said [
      "S.count(sub[, start[, end]]) -> int",
      "",
      "Return the number of non-overlapping occurrences of substring sub in",
      "string S[start:end].  Optional arguments start and end are",
      "interpreted as in slice notation."]),
  ("encode", said [
      "Encode the string using the codec registered for encoding.",
      "",
      "  encoding",
      "    The encoding in which to encode the string.",
      "  errors",
      "    The error handling scheme to use for encoding errors.",
      "    The default is 'strict' meaning that encoding errors raise a",
      "    UnicodeEncodeError.  Other possible values are 'ignore', 'replace' and",
      "    'xmlcharrefreplace' as well as any other name registered with",
      "    codecs.register_error that can handle UnicodeEncodeErrors."]),
  ("endswith", said [
      "S.endswith(suffix[, start[, end]]) -> bool",
      "",
      "Return True if S ends with the specified suffix, False otherwise.",
      "With optional start, test S beginning at that position.",
      "With optional end, stop comparing S at that position.",
      "suffix can also be a tuple of strings to try."]),
  ("expandtabs", said [
      "Return a copy where all tab characters are expanded using spaces.",
      "",
      "If tabsize is not given, a tab size of 8 characters is assumed."]),
  ("find", said [
      "S.find(sub[, start[, end]]) -> int",
      "",
      "Return the lowest index in S where substring sub is found,",
      "such that sub is contained within S[start:end].  Optional",
      "arguments start and end are interpreted as in slice notation.",
      "",
      "Return -1 on failure."]),
  ("format", said [
      "S.format(*args, **kwargs) -> str",
      "",
      "Return a formatted version of S, using substitutions from args and kwargs.",
      "The substitutions are identified by braces ('\x7b' and '\x7d')."]),
  ("format_map", said [
      "S.format_map(mapping) -> str",
      "",
      "Return a formatted version of S, using substitutions from mapping.",
      "The substitutions are identified by braces ('\x7b' and '\x7d')."]),
  ("index", said [
      "S.index(sub[, start[, end]]) -> int",
      "",
      "Return the lowest index in S where substring sub is found,",
      "such that sub is contained within S[start:end].  Optional",
      "arguments start and end are interpreted as in slice notation.",
      "",
      "Raises ValueError when the substring is not found."]),
  ("isalnum", said [
      "Return True if the string is an alpha-numeric string, False otherwise.",
      "",
      "A string is alpha-numeric if all characters in the string are alpha-numeric and",
      "there is at least one character in the string."]),
  ("isalpha", said [
      "Return True if the string is an alphabetic string, False otherwise.",
      "",
      "A string is alphabetic if all characters in the string are alphabetic and there",
      "is at least one character in the string."]),
  ("isascii", said [
      "Return True if all characters in the string are ASCII, False otherwise.",
      "",
      "ASCII characters have code points in the range U+0000-U+007F.",
      "Empty string is ASCII too."]),
  ("isdecimal", said [
      "Return True if the string is a decimal string, False otherwise.",
      "",
      "A string is a decimal string if all characters in the string are decimal and",
      "there is at least one character in the string."]),
  ("isdigit", said [
      "Return True if the string is a digit string, False otherwise.",
      "",
      "A string is a digit string if all characters in the string are digits and there",
      "is at least one character in the string."]),
  ("isidentifier", said [
      "Return True if the string is a valid Python identifier, False otherwise.",
      "",
      "Call keyword.iskeyword(s) to test whether string s is a reserved identifier,",
      "such as \"def\" or \"class\"."]),
  ("islower", said [
      "Return True if the string is a lowercase string, False otherwise.",
      "",
      "A string is lowercase if all cased characters in the string are lowercase and",
      "there is at least one cased character in the string."]),
  ("isnumeric", said [
      "Return True if the string is a numeric string, False otherwise.",
      "",
      "A string is numeric if all characters in the string are numeric and there is at",
      "least one character in the string."]),
  ("isprintable", said [
      "Return True if the string is printable, False otherwise.",
      "",
      "A string is printable if all of its characters are considered printable in",
      "repr() or if it is empty."]),
  ("isspace", said [
      "Return True if the string is a whitespace string, False otherwise.",
      "",
      "A string is whitespace if all characters in the string are whitespace and there",
      "is at least one character in the string."]),
  ("istitle", said [
      "Return True if the string is a title-cased string, False otherwise.",
      "",
      "In a title-cased string, upper- and title-case characters may only",
      "follow uncased characters and lowercase characters only cased ones."]),
  ("isupper", said [
      "Return True if the string is an uppercase string, False otherwise.",
      "",
      "A string is uppercase if all cased characters in the string are uppercase and",
      "there is at least one cased character in the string."]),
  ("join", said [
      "Concatenate any number of strings.",
      "",
      "The string whose method is called is inserted in between each given string.",
      "The result is returned as a new string.",
      "",
      "Example: '.'.join(['ab', 'pq', 'rs']) -> 'ab.pq.rs'"]),
  ("ljust", said [
      "Return a left-justified string of length width.",
      "",
      "Padding is done using the specified fill character (default is a space)."]),
  ("lower", said ["Return a copy of the string converted to lowercase."]),
  ("lstrip", said [
      "Return a copy of the string with leading whitespace removed.",
      "",
      "If chars is given and not None, remove characters in chars instead."]),
  ("maketrans", said [
      "Return a translation table usable for str.translate().",
      "",
      "If there is only one argument, it must be a dictionary mapping Unicode",
      "ordinals (integers) or characters to Unicode ordinals, strings or None.",
      "Character keys will be then converted to ordinals.",
      "If there are two arguments, they must be strings of equal length, and",
      "in the resulting dictionary, each character in x will be mapped to the",
      "character at the same position in y. If there is a third argument, it",
      "must be a string, whose characters will be mapped to None in the result."]),
  ("partition", said [
      "Partition the string into three parts using the given separator.",
      "",
      "This will search for the separator in the string.  If the separator is found,",
      "returns a 3-tuple containing the part before the separator, the separator",
      "itself, and the part after it.",
      "",
      "If the separator is not found, returns a 3-tuple containing the original string",
      "and two empty strings."]),
  ("removeprefix", said [
      "Return a str with the given prefix string removed if present.",
      "",
      "If the string starts with the prefix string, return string[len(prefix):].",
      "Otherwise, return a copy of the original string."]),
  ("removesuffix", said [
      "Return a str with the given suffix string removed if present.",
      "",
      "If the string ends with the suffix string and that suffix is not empty,",
      "return string[:-len(suffix)]. Otherwise, return a copy of the original",
      "string."]),
  ("replace", said [
      "Return a copy with all occurrences of substring old replaced by new.",
      "",
      "  count",
      "    Maximum number of occurrences to replace.",
      "    -1 (the default value) means replace all occurrences.",
      "",
      "If the optional argument count is given, only the first count occurrences are",
      "replaced."]),
  ("rfind", said [
      "S.rfind(sub[, start[, end]]) -> int",
      "",
      "Return the highest index in S where substring sub is found,",
      "such that sub is contained within S[start:end].  Optional",
      "arguments start and end are interpreted as in slice notation.",
      "",
      "Return -1 on failure."]),
  ("rindex", said [
      "S.rindex(sub[, start[, end]]) -> int",
      "",
      "Return the highest index in S where substring sub is found,",
      "such that sub is contained within S[start:end].  Optional",
      "arguments start and end are interpreted as in slice notation.",
      "",
      "Raises ValueError when the substring is not found."]),
  ("rjust", said [
      "Return a right-justified string of length width.",
      "",
      "Padding is done using the specified fill character (default is a space)."]),
  ("rpartition", said [
      "Partition the string into three parts using the given separator.",
      "",
      "This will search for the separator in the string, starting at the end. If",
      "the separator is found, returns a 3-tuple containing the part before the",
      "separator, the separator itself, and the part after it.",
      "",
      "If the separator is not found, returns a 3-tuple containing two empty strings",
      "and the original string."]),
  ("rsplit", said [
      "Return a list of the substrings in the string, using sep as the separator string.",
      "",
      "  sep",
      "    The separator used to split the string.",
      "",
      "    When set to None (the default value), will split on any whitespace",
      "    character (including \\n \\r \\t \\f and spaces) and will discard",
      "    empty strings from the result.",
      "  maxsplit",
      "    Maximum number of splits.",
      "    -1 (the default value) means no limit.",
      "",
      "Splitting starts at the end of the string and works to the front."]),
  ("rstrip", said [
      "Return a copy of the string with trailing whitespace removed.",
      "",
      "If chars is given and not None, remove characters in chars instead."]),
  ("split", said [
      "Return a list of the substrings in the string, using sep as the separator string.",
      "",
      "  sep",
      "    The separator used to split the string.",
      "",
      "    When set to None (the default value), will split on any whitespace",
      "    character (including \\n \\r \\t \\f and spaces) and will discard",
      "    empty strings from the result.",
      "  maxsplit",
      "    Maximum number of splits.",
      "    -1 (the default value) means no limit.",
      "",
      "Splitting starts at the front of the string and works to the end.",
      "",
      "Note, str.split() is mainly useful for data that has been intentionally",
      "delimited.  With natural text that includes punctuation, consider using",
      "the regular expression module."]),
  ("splitlines", said [
      "Return a list of the lines in the string, breaking at line boundaries.",
      "",
      "Line breaks are not included in the resulting list unless keepends is given and",
      "true."]),
  ("startswith", said [
      "S.startswith(prefix[, start[, end]]) -> bool",
      "",
      "Return True if S starts with the specified prefix, False otherwise.",
      "With optional start, test S beginning at that position.",
      "With optional end, stop comparing S at that position.",
      "prefix can also be a tuple of strings to try."]),
  ("strip", said [
      "Return a copy of the string with leading and trailing whitespace removed.",
      "",
      "If chars is given and not None, remove characters in chars instead."]),
  ("swapcase", said [
      "Convert uppercase characters to lowercase and lowercase characters to uppercase."]),
  ("title", said [
      "Return a version of the string where each word is titlecased.",
      "",
      "More specifically, words start with uppercased characters and all remaining",
      "cased characters have lower case."]),
  ("translate", said [
      "Replace each character in the string using the given translation table.",
      "",
      "  table",
      "    Translation table, which must be a mapping of Unicode ordinals to",
      "    Unicode ordinals, strings, or None.",
      "",
      "The table must implement lookup/indexing via __getitem__, for instance a",
      "dictionary or list.  If this operation raises LookupError, the character is",
      "left untouched.  Characters mapped to None are deleted."]),
  ("upper", said ["Return a copy of the string converted to uppercase."]),
  ("zfill", said [
      "Pad a numeric string with zeros on the left, to fill a field of the given width.",
      "",
      "The string is never truncated."])]

/-- The documentation of the class that every class inherits from. -/
def objectClassDoc : String := "\n".intercalate [
      "The base class of the class hierarchy.",
      "",
      "When called, it accepts no arguments and returns a new featureless",
      "instance that has no instance attributes and cannot be given any.",
      ""]

/-- The documentation of the class of classes. -/
def typeClassDoc : String := "\n".intercalate [
      "type(object) -> the object's type",
      "type(name, bases, dict, **kwds) -> a new type"]

/-- The documentation of the class of functions. -/
def functionClassDoc : String := "\n".intercalate [
      "Create a function object.",
      "",
      "  code",
      "    a code object",
      "  globals",
      "    the globals dictionary",
      "  name",
      "    a string that overrides the name from the code object",
      "  argdefs",
      "    a tuple that specifies the default argument values",
      "  closure",
      "    a tuple that supplies the bindings for free variables"]

/-- The documentation of the class of modules. -/
def moduleClassDoc : String := "\n".intercalate [
      "Create a module object.",
      "",
      "The name must be a string; the optional doc argument can have any type."]

/-- The documentation of whole numbers. -/
def integerDoc : String := "\n".intercalate [
      "int([x]) -> integer",
      "int(x, base=10) -> integer",
      "",
      "Convert a number or string to an integer, or return 0 if no arguments",
      "are given.  If x is a number, return x.__int__().  For floating point",
      "numbers, this truncates towards zero.",
      "",
      "If x is not a number or if base is given, then x must be a string,",
      "bytes, or bytearray instance representing an integer literal in the",
      "given base.  The literal can be preceded by '+' or '-' and be surrounded",
      "by whitespace.  The base defaults to 10.  Valid bases are 0 and 2-36.",
      "Base 0 means to interpret the base from the string as an integer literal.",
      ">>> int('0b100', base=0)",
      "4"]

/-- The documentation of texts. -/
def textDoc : String := "\n".intercalate [
      "str(object='') -> str",
      "str(bytes_or_buffer[, encoding[, errors]]) -> str",
      "",
      "Create a new string object from the given object. If encoding or",
      "errors is specified, then the object must expose a data buffer",
      "that will be decoded using the given encoding and error handler.",
      "Otherwise, returns the result of object.__str__() (if defined)",
      "or repr(object).",
      "encoding defaults to sys.getdefaultencoding().",
      "errors defaults to 'strict'."]

end ApiManual.Source
