/-!
# Records of comma-separated values

A file is a sequence of bytes that falls into records, and records into fields. A record ends with a
line feed, a carriage return or both, or with the file; an empty line is no record. A field that
starts with a quote runs to the next lone quote, and two quotes in a row stand for one; what follows
the closing quote up to the separator belongs to the field as it is. A quote anywhere else is an
ordinary byte. `records` has an answer for every file.
-/

namespace Interview.Csv

/-- The bytes of a field. -/
abbrev Field := List UInt8

/-- The fields of a record. -/
abbrev Record := List Field

/-- The bytes that the format gives a meaning to. -/
def comma : UInt8 := 0x2c

@[inherit_doc comma] def quote : UInt8 := 0x22

@[inherit_doc comma] def lineFeed : UInt8 := 0x0a

@[inherit_doc comma] def carriageReturn : UInt8 := 0x0d

/-- Whether a byte ends a record outside quotes. -/
def endsRecord (b : UInt8) : Bool :=
  b == lineFeed || b == carriageReturn

/-- Where the walk over a file stands within a record. -/
inductive Place where
  /-- Before the first byte of a record. -/
  | recordStart
  /-- Before the first byte of a later field. -/
  | fieldStart
  /-- In a field, outside quotes. -/
  | plain
  /-- In quotes. -/
  | quoted
  /-- After a quote in quotes. -/
  | quoteInQuoted
deriving DecidableEq, Repr

/-- What has been read: whole records, fields of the record at hand and bytes of the field at hand,
each last first. -/
structure Walk where
  place : Place
  done : List Record
  fields : List Field
  bytes : List UInt8
deriving DecidableEq, Repr

namespace Walk

/-- Before the first byte of a file. -/
def start : Walk := ⟨.recordStart, [], [], []⟩

/-- Adds a byte to the field at hand. -/
def take (w : Walk) (place : Place) (b : UInt8) : Walk :=
  { w with place, bytes := b :: w.bytes }

/-- Ends the field at hand. -/
def endField (w : Walk) : Walk :=
  { w with place := .fieldStart, fields := w.bytes.reverse :: w.fields, bytes := [] }

/-- Ends the field and the record at hand. -/
def endRecord (w : Walk) : Walk :=
  ⟨.recordStart, (w.bytes.reverse :: w.fields).reverse :: w.done, [], []⟩

/-- Takes a byte at a place where separators have their meaning. -/
def takeUnquoted (w : Walk) (b : UInt8) : Walk :=
  if b == comma then w.endField
  else if endsRecord b then w.endRecord
  else w.take .plain b

/-- Takes one byte. -/
def step (w : Walk) (b : UInt8) : Walk :=
  match w.place with
  | .recordStart =>
    if endsRecord b then w
    else if b == quote then { w with place := .quoted }
    else w.takeUnquoted b
  | .fieldStart => if b == quote then { w with place := .quoted } else w.takeUnquoted b
  | .plain => w.takeUnquoted b
  | .quoted => if b == quote then { w with place := .quoteInQuoted } else w.take .quoted b
  | .quoteInQuoted => if b == quote then w.take .quoted b else w.takeUnquoted b

/-- The records read when the file ends. -/
def finish (w : Walk) : List Record :=
  match w.place with
  | .recordStart => w.done.reverse
  | _ => w.endRecord.done.reverse

end Walk

/-- A file without the mark that may stand in front of UTF-8 text. -/
def dropMark : List UInt8 → List UInt8
  | 0xef :: 0xbb :: 0xbf :: rest => rest
  | bytes => bytes

/-- The records of a file. -/
def records (bytes : List UInt8) : List Record :=
  ((dropMark bytes).foldl Walk.step Walk.start).finish

end Interview.Csv
