/-
Characters from bytes in UTF-8.

* `decodeUtf8`: the characters, or the number of good bytes before the first sequence that is no
  character. Overlong forms and surrogates are no characters.
-/

namespace SchemaDecl.Text

/-- A byte that continues a sequence. -/
def isContinuation (b : UInt8) : Bool := 0x80 ≤ b && b < 0xC0

/-- The six low bits of a continuation byte. -/
def low (b : UInt8) : Nat := b.toNat % 64

/-- Decodes bytes, of which the first is the `index`-th of the text. -/
def decodeUtf8From (index : Nat) : List UInt8 → Except Nat (List Char)
  | [] => .ok []
  | a :: rest =>
    if a < 0x80 then (Char.ofNat a.toNat :: ·) <$> decodeUtf8From (index + 1) rest
    else match rest with
      | [] => .error index
      | b :: rest =>
        if !isContinuation b then .error index
        else if 0xC2 ≤ a && a < 0xE0 then
          (Char.ofNat (a.toNat % 32 * 64 + low b) :: ·) <$> decodeUtf8From (index + 2) rest
        else match rest with
          | [] => .error index
          | c :: rest =>
            if !isContinuation c then .error index
            else if 0xE0 ≤ a && a < 0xF0 then
              let n := (a.toNat % 16 * 64 + low b) * 64 + low c
              if n < 0x800 || (0xD800 ≤ n && n < 0xE000) then .error index
              else (Char.ofNat n :: ·) <$> decodeUtf8From (index + 3) rest
            else match rest with
              | [] => .error index
              | d :: rest =>
                let n := ((a.toNat % 8 * 64 + low b) * 64 + low c) * 64 + low d
                if isContinuation d && 0xF0 ≤ a && a < 0xF5 && 0x10000 ≤ n && n < 0x110000 then
                  (Char.ofNat n :: ·) <$> decodeUtf8From (index + 4) rest
                else .error index

/-- Decodes a whole text. -/
def decodeUtf8 (bytes : List UInt8) : Except Nat (List Char) := decodeUtf8From 0 bytes

/-- The bytes of a text. -/
def utf8 (s : String) : List UInt8 := s.toUTF8.toList

end SchemaDecl.Text
