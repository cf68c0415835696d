/-!
# Winsock — what an overlapped call answers

`WSARecv` and `WSASend` either queue the operation, whose completion then arrives through the completion port, or
fail at once with an error code.  `Session::HandleError` looks at the code of a call that failed at once.
-/
namespace Geon

def WSA_IO_PENDING : Nat := 997
def WSAECONNABORTED : Nat := 10053
def WSAECONNRESET : Nat := 10054

/-- What an overlapped Winsock call returned: success, or `SOCKET_ERROR` and the code of `WSAGetLastError`. -/
inductive WsaResult
  | success
  | socketError (errCode : Nat)
  deriving DecidableEq, Repr

/-- The code of a call that failed at once; `WSA_IO_PENDING` is a call that did not. -/
def WsaResult.failed : WsaResult → Option Nat
  | .success => none
  | .socketError errCode => if errCode ≠ WSA_IO_PENDING then some errCode else none

/-- `Session::HandleError`: the cause it disconnects with, `none` where it only logs the code. -/
def handleError (errorCode : Nat) : Option String :=
  if errorCode = WSAECONNRESET ∨ errorCode = WSAECONNABORTED then some "HandleError" else none

end Geon
