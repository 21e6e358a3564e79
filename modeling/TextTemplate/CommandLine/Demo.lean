import TextTemplate.Context
import TextTemplate.Source.Piece

namespace TextTemplate.CommandLine

/-- A bundled document, by the route that leads to it. -/
structure Demo where
  route : String
  template : List Piece.Body
  context : Context
  /-- What is said if it cannot be rendered. -/
  failure : String

namespace Demo

def source (d : Demo) : String :=
  Piece.Body.source d.template

def text (s : String) : Piece.Body := .text s.toList

def output (s : String) : Piece.Body := .tag .output s.toList

def statement (s : String) : Piece.Body := .tag .statement s.toList

def decimal (negative : Bool) (digits : Nat) (exponent : Int) : Value :=
  .number (Number.ofDecimal ⟨negative, digits, exponent⟩)

def orderReceipt : List Piece.Body :=
  [text "\nOrder Receipt for ",
    output " Customer.FirstName ",
    text " ",
    output " Customer.LastName ",
    text "\n\n---\nOrder Details\n---\nOrder ID: ",
    output " Order.Id ",
    text "\nOrder Date: ",
    output " Order.Date ",
    text "\nPayment Status: ",
    output " Order.Status ",
    text "\n\nItems:\n",
    statement " for item in Order.Items ",
    text "\n- ",
    output " item.Name ",
    text " (x",
    output " item.Quantity ",
    text ") — ",
    output " Order.Currency ",
    text " ",
    output " item.Price | money ",
    text "\n",
    statement " endfor ",
    text "\n\nSubtotal: ",
    output " Order.Currency ",
    text " ",
    output " Order.Subtotal | money ",
    text "\nTax: ",
    output " Order.Currency ",
    text " ",
    output " Order.Tax | money ",
    text "\nTotal: ",
    output " Order.Currency ",
    text " ",
    output " Order.Total | money ",
    text "\n\n---\nShipping To:\n",
    output " Customer.FirstName ",
    text " ",
    output " Customer.LastName ",
    text "\n",
    output " Customer.Address.Street ",
    text "\n",
    output " Customer.Address.City ",
    text ", ",
    output " Customer.Address.State ",
    text " ",
    output " Customer.Address.Zip ",
    text "\n"]

def order : Context :=
  ⟨[
    ("Customer", .object [
      ("FirstName", .string "Jordan"),
      ("LastName", .string "Taylor"),
      ("Email", .string "jordan.t@example.com"),
      ("Address", .object [
        ("Street", .string "123 Main St"),
        ("City", .string "Austin"),
        ("State", .string "TX"),
        ("Zip", .string "73301")])]),
    ("Order", .object [
      ("Id", .string "ORD-1001"),
      ("Date", .string "2025-09-01"),
      ("Status", .string "Paid"),
      ("Currency", .string "USD"),
      ("Items", .array [
        .object [
          ("Name", .string "Wireless Headphones"),
          ("Quantity", decimal false 1 0),
          ("Price", decimal false 9999 (-2))],
        .object [
          ("Name", .string "USB-C Cable"),
          ("Quantity", decimal false 2 0),
          ("Price", decimal false 999 (-2))]]),
      ("Subtotal", decimal false 11997 (-2)),
      ("Tax", decimal false 96 (-1)),
      ("Total", decimal false 12957 (-2))])]⟩

def invoice : List Piece.Body :=
  [text "\n",
    statement " assign customer_name = Account.FirstName ",
    text "\n",
    statement " assign due_date_formatted = Invoice.DueDate | date: \"%B %d, %Y\" ",
    text "\nHello ",
    output " customer_name ",
    text ",\n\nHere is your invoice ",
    output " Invoice.InvoiceNumber ",
    text " from ",
    output " constants.companyName ",
    text ", generated on ",
    output " \"now\" | date: \"%B %d, %Y\" ",
    text (".\n\n============================================================\n" ++
      "INVOICE SUMMARY\n============================================================\n\n" ++
      "Billed To:\n"),
    output " Account.Company ",
    text "\n",
    output " Account.BillingAddress ",
    text "\n\nStatus:     ",
    output " Invoice.Status ",
    text "\nDue Date:   ",
    output " due_date_formatted ",
    text "\n\n",
    statement " assign balance_due = Invoice.Total | minus: Invoice.AmountPaid ",
    text "\nAmount Due: $ ",
    output " balance_due | money",
    text "\n\n",
    statement " if balance_due > 0 ",
    text ("\n" ++
      "Please make your payment by the due date to ensure your services remain active.\n"),
    statement " else ",
    text "\nThank you, this invoice has been fully paid.\n",
    statement " endif ",
    text ("\n\n============================================================\n" ++
      "INVOICE DETAILS\n============================================================\n\n" ++
      "Description                          Qty    Price\n" ++
      "------------------------------------ --- ----------\n"),
    statement " for item in Invoice.LineItems ",
    text "\n",
    output " item.Description ",
    text "   ",
    output " item.Quantity ",
    text "    ",
    statement " if item.Price < 0 ",
    text "($ ",
    output " item.Price | times: -1 | money ",
    text ")",
    statement " else ",
    text "$ ",
    output " item.Price | money ",
    statement " endif ",
    text "\n",
    statement " endfor ",
    text ("\n------------------------------------ --- ----------\n" ++
      "                              Subtotal:   $ "),
    output " Invoice.Subtotal | money ",
    text "\n                                   Tax:   $ ",
    output " Invoice.Tax | money ",
    text "\n                                 Total:   $ ",
    output " Invoice.Total | money ",
    text "\n                           Amount Paid:   ($ ",
    output " Invoice.AmountPaid | money ",
    text (")\n                           -----------\n" ++
      "                           Balance Due:   $  "),
    output " balance_due | money ",
    text "\n\n",
    statement " assign recurring_items = Invoice.LineItems | where: \"Type\", \"Recurring\" ",
    text "\nYour recurring subscription charges for this period total $ ",
    output " recurring_items | map: \"Price\" | sum | money ",
    text (".\n\nThank you for your business.\n" ++
      "If you need assistance, please call our support team at "),
    output " constants.supportPhone.US ",
    text ".\n\nSincerely,\n",
    output " constants.companyName ",
    text "\n"]

def account : Context :=
  ⟨[
    ("Account", .object [
      ("FirstName", .string "Alex"),
      ("Company", .string "Rivera Auto Group"),
      ("BillingAddress", .string "123 Innovation Drive, Dearborn, MI 48120")]),
    ("constants", .object [
      ("companyName", .string "Ford Connected Services"),
      ("websiteURL", .string "https://connect.ford.com"),
      ("supportPhone", .object [("US", .string "1-800-555-1234"), ("UK", .string "+44-800-555-1234")])]),
    ("Invoice", .object [
      ("InvoiceNumber", .string "INV00098765"),
      ("IssueDate", .string "2025-08-26"),
      ("DueDate", .string "2025-09-10"),
      ("Currency", .string "USD"),
      ("Status", .string "Posted"),
      ("Tax", decimal false 12 0),
      ("Subtotal", decimal false 200 0),
      ("Total", decimal false 212 0),
      ("AmountPaid", decimal false 0 0),
      ("LineItems", .array [
        .object [
          ("SKU", .string "FP-PRO-Y"),
          ("Description", .string "FordPass Pro - Annual Subscription"),
          ("Type", .string "Recurring"),
          ("Quantity", decimal false 1 0),
          ("Price", decimal false 150 0)],
        .object [
          ("SKU", .string "FS-SEC-M"),
          ("Description", .string "Ford Secure Add-on"),
          ("Type", .string "Recurring"),
          ("Quantity", decimal false 1 0),
          ("Price", decimal false 50 0)],
        .object [
          ("SKU", .string "SETUP-01"),
          ("Description", .string "One-Time Setup Fee"),
          ("Type", .string "OneTime"),
          ("Quantity", decimal false 1 0),
          ("Price", decimal false 25 0)],
        .object [
          ("SKU", .string "ADJ-CRED"),
          ("Description", .string "Loyalty Credit"),
          ("Type", .string "Credit"),
          ("Quantity", decimal false 1 0),
          ("Price", decimal true 25 0)]])])]⟩

def subscriptionStatus : List Piece.Body :=
  [text "\nHello ",
    output " Customer.FirstName ",
    text ",\n\n",
    statement " if Subscription.Status == 'Active' ",
    text ("\n" ++
      "Your subscription is active and everything looks good for your upcoming renewal.\n"),
    statement " elsif Subscription.Status == 'Past Due' ",
    text ("\n" ++
      "Our records show your account is past due. Please update your payment information " ++
      "to ensure uninterrupted service.\n"),
    statement " else ",
    text "\nThere is an issue with your subscription. Please contact support.\n",
    statement " endif ",
    text "\n\nSubscription ID: ",
    output " Subscription.Id ",
    text "\n"]

def subscriptionRenewal : List Piece.Body :=
  [text "\nSubscription Renewal Notice for ",
    output " Customer.FirstName | upcase ",
    text "\n\nYour '",
    output " Subscription.Name ",
    text "' plan, which renews on ",
    output " Subscription.TermEndDate | date: \"%B %d, %Y\" ",
    text ", includes the following features:\n\n",
    statement " for feature in Subscription.Features ",
    text "\n- ",
    output " feature ",
    text "\n",
    statement " endfor ",
    text "\n\nPlease ensure your payment method is up to date.\n"]

def subscription : Context :=
  ⟨[
    ("Customer", .object [
      ("FirstName", .string "Alex"),
      ("LastName", .string "Rivera"),
      ("Email", .string "alex.r@example.com")]),
    ("Subscription", .object [
      ("Id", .string "8ad09be48a22193c018a38a7295064ac"),
      ("Name", .string "Ford Connected Charge Station"),
      ("Status", .string "Past Due"),
      ("TermEndDate", .string "2025-09-30"),
      ("RenewalPrice", decimal false 15 0),
      ("Currency", .string "USD"),
      ("Features", .array [.string "Remote Power Management", .string "Usage Analytics",
        .string "Scheduled Charging"])])]⟩

def all : List Demo :=
  [⟨"order-receipt", orderReceipt, order, "Error rendering order receipt."⟩,
    ⟨"invoice", invoice, account, "Error rendering invoice."⟩,
    ⟨"subscription_status", subscriptionStatus, subscription, "Error rendering subscription status."⟩,
    ⟨"subscriptionrenewal", subscriptionRenewal, subscription, "Error rendering subscription renewal."⟩]

end Demo

end TextTemplate.CommandLine
