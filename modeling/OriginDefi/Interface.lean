import OriginDefi.Lib.Bytes

/-!
# The plugin interface of the Ethereum application

What `eth_internals.h` and `eth_plugin_interface.h` define and the plugin uses: lengths, result
codes, the transaction content, token definitions, and C strings.

A `char` buffer is represented by the C string it holds (its characters before the first NUL, at
most the size of the buffer): the plugin writes such buffers only with `strlcpy` and `memset`, and
the SDK reads them only with `strnlen`, so nothing depends on the bytes after the NUL.
-/

namespace OriginDefi

/-- `MAX_TICKER_LEN`: ten characters and the NUL. -/
def maxTickerLen : ℕ := 11

/-- `ADDRESS_LENGTH` -/
abbrev addressLength : ℕ := 20

/-- `INT256_LENGTH` -/
abbrev int256Length : ℕ := 32

/-- `PARAMETER_LENGTH` -/
abbrev parameterLength : ℕ := 32

instance : NeZero parameterLength := ⟨by decide⟩

/-- `WEI_TO_ETHER` -/
def weiToEther : UInt8 := 18

/-- A 20-byte address. -/
abbrev Address := Bytes addressLength

/-- A 32-byte word of the calldata. -/
abbrev Word := Bytes parameterLength

/-- `ETH_PLUGIN_INTERFACE_VERSION_LATEST` -/
def ethPluginInterfaceVersionLatest : UInt8 := 6

/-- `eth_plugin_result_t` -/
inductive Result
  | error
  | unavailable
  | unsuccessful
  | successful
  | ok
  | okAlias
  | fallback
  deriving DecidableEq

/-- `eth_ui_type_t` -/
inductive UiType
  | amountAddress
  | generic
  deriving DecidableEq

/-- The contents of a C string, without the NUL. -/
abbrev CString := List Char

/-- `strlcpy(dst, src, size)`: at most `size - 1` characters; a size of zero writes nothing. -/
def strlcpy (dst src : CString) (size : ℕ) : CString :=
  if size = 0 then dst else src.take (size - 1)

theorem strlcpy_of_lt {dst src : CString} {size : ℕ} (h : src.length < size) :
    strlcpy dst src size = src := by
  have : size ≠ 0 := by omega
  rw [strlcpy, if_neg this, List.take_of_length_le (by omega)]

/-- `memset(dst, 0, size)` on a string buffer. -/
def clearString (dst : CString) (size : ℕ) : CString :=
  if size = 0 then dst else []

/-- A NUL-terminated ticker in a buffer of `MAX_TICKER_LEN` characters. -/
structure Ticker where
  text : CString
  fits : text.length < maxTickerLen

theorem strlcpy_ticker (dst : CString) (t : Ticker) : strlcpy dst t.text maxTickerLen = t.text :=
  strlcpy_of_lt t.fits

/-- `tokenDefinition_t`, the fields the plugin reads. -/
structure TokenDefinition where
  ticker : Ticker
  decimals : UInt8

/-- `txInt256_t` -/
structure TxInt256 where
  value : Bytes int256Length
  length : UInt8

/-- `txContent_t`, the fields the plugin reads. -/
structure TxContent where
  value : TxInt256
  destination : Address

/-- The buffer behind `msg->parameter`: the 32 bytes of the word, and what memory holds around
them. -/
structure ParamBuffer where
  word : Word
  around : ℤ → UInt8

/-- `msg->parameter[i]` -/
def ParamBuffer.read (p : ParamBuffer) : ℤ → UInt8 := p.word.read p.around

/-- Exceptions that `main` tells apart: `EXCEPTION_OVERFLOW`, `0x6502`, and any other. -/
inductive Exception
  | overflow
  | code6502
  | other
  deriving DecidableEq

/-- The SDK functions that turn parameters into text.

* `amountToString amount amountSize decimals ticker outBufferSize` is what `amountToString` leaves
  in the output buffer, and the exception it throws, if any;
* `getEthAddressStringFromBinary address chainId` is the forty characters of an address. -/
structure Formatter where
  amountToString : Bytes int256Length → UInt8 → UInt8 → CString → ℕ → CString × Option Exception
  getEthAddressStringFromBinary : Address → ℕ → CString

end OriginDefi
