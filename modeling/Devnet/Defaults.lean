set_option autoImplicit false

namespace Devnet

namespace Variable

def rpcUrl : String := "STARKNET_RPC_URL"
def accountAddress : String := "DEVNET_ACCOUNT_ADDRESS"
def privateKey : String := "DEVNET_PRIVATE_KEY"
def walletPath : String := "STARKLI_PATH"
def launcher : String := "WALLET_LAUNCHER"
def logFilter : String := "RUST_LOG"

end Variable

namespace Default

def rpcUrl : String := "http://127.0.0.1:5060"

-- Predeployed account of the devnet (seeded, not a real secret).
def accountAddress : String := "0x064b48806902a367c8598f4f95c305e8c1a1acba5f082d294a43793113115691"

def privateKey : String := "0x0000000000000000000000000000000071d7bb07b9a64f6f78ac4c816aff4da9"

def walletPath : String := "/home/sl/.starkli/bin/starkli"

def launcher : Option String := none

def salt : String := "0x0"

end Default

def mockBtcClassHash : String := "0x04dbf6009feb48d7a1100d9c5aeb7607f7dfc02d8f984fe7f8ac8d7d79a5189b"

def vaultClassHash : String := "0x067f2255713ea2c7abdafcfa8978013c0856e2f77841432e1b9598a66b0df9a2"

def deployerAddress : String := "0x041a78e741e5af2fec34b695679bc6891742439f7afb8484ecd7766661ad02bf"

def deployEntrypoint : String := "deployContract"

def accountEndpoints : List String :=
  ["/predeployed_accounts", "/predeployed-accounts", "/accounts", "/config", "/version"]

end Devnet
