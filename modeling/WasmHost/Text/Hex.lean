namespace WasmHost.Text

/-- Lower-case hexadecimal digits without leading zeros. -/
def hex (n : Nat) : String := String.ofList (Nat.toDigits 16 n)

/-- Lower-case hexadecimal digits, filled up with zeros on the left to `width`. -/
def hexPadded (width n : Nat) : String :=
  String.ofList (List.replicate (width - (Nat.toDigits 16 n).length) '0' ++ Nat.toDigits 16 n)

end WasmHost.Text
